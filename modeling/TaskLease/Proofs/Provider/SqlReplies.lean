import TaskLease.Proofs.Provider.Desk
import TaskLease.Proofs.Store.SqlExchange

/-!
# What the replies of a database come to

A provider on a database and the handles that it has given out: every request is answered by what the database replies
to the statements that it sends, and the replies may be any.

`LawfulStep` says what a request sends and what it is answered, given the entries before. It depends on what the
provider remembers and on what has become of the handles: `remembered`, `ended` and `IsCurrent` read that off the
entries, and `Fits` says that the provider and its handles agree with it, which every request keeps up.
-/

namespace TaskLease

namespace Sql

/-! ## Sessions -/

/-- A provider on a database, and the handles that it has given out, the first one first. -/
structure Session where
  stage : Stage Wire
  provider : Provider := .plain .empty
  handles : List Handle := []

namespace Session

/-- A session in which nothing has happened, and the replies that are to come. -/
def opened (replies : List Reply) : Session := { stage := { store := { replies } } }

/-- What is asked for in a session. Handles go by their numbers. -/
inductive Request where
  | tryLock (config : LockConfig)
  | clearCache
  | unlock (i : Nat)
  | extend (i : Nat) (atMost atLeast : Duration)
deriving DecidableEq, Repr

/-- What came of a request: what was exchanged, and the answer. -/
inductive Entry where
  | attempted (config : LockConfig) (exchanges : List Exchange) (answer : Except LockError (Option Handle))
  | cleared
  | unlocked (i : Nat) (exchanges : List Exchange) (answer : Except LockError Unit)
  | extended (i : Nat) (atMost atLeast : Duration) (exchanges : List Exchange) (answer : Except LockError Bool)
  /-- There is no handle of the number. -/
  | nothing
deriving DecidableEq

/-- One request. -/
def step (c : Client) (session : Session) : Request → Entry × Session
  | .tryLock config =>
    let reply := session.provider.tryLock c.accessor .zero config session.stage
    (.attempted config (exchanged session.stage.store reply.2.store) reply.1.1,
      { stage := reply.2, provider := reply.1.2, handles := session.handles ++ reply.1.1.toOption.join.toList })
  | .clearCache => (.cleared, { session with provider := session.provider.clearCache })
  | .unlock i =>
    match session.handles[i]? with
    | none => (.nothing, session)
    | some h =>
      let reply := h.unlock c.accessor session.provider session.stage
      (.unlocked i (exchanged session.stage.store reply.2.store) reply.1.1,
        { stage := reply.2, provider := reply.1.2.2, handles := session.handles.set i reply.1.2.1 })
  | .extend i atMost atLeast =>
    match session.handles[i]? with
    | none => (.nothing, session)
    | some h =>
      let reply := h.extend c.accessor atMost atLeast session.provider session.stage
      (.extended i atMost atLeast (exchanged session.stage.store reply.2.store) reply.1.1,
        { stage := reply.2, provider := reply.1.2.2, handles := session.handles.set i reply.1.2.1 })

/-- What comes of some requests, one after the other. -/
def history (c : Client) : List Request → Session → List Entry
  | [], _ => []
  | request :: rest, session =>
    let reply := session.step c request
    reply.1 :: history c rest reply.2

/-! ## What a history says -/

namespace Entry

/-- Whether a name is remembered after an entry, if it was before or not. An attempt for it that does not fail makes it
remembered. -/
def remembers (name : String) (known : Bool) : Entry → Bool
  | .attempted config _ (.ok _) => known || config.name = name
  | .cleared => false
  | _ => known

/-- The configuration of an attempt that gave out a handle. -/
def acquired? : Entry → Option LockConfig
  | .attempted config _ (.ok (some _)) => some config
  | _ => none

/-- Whether an entry released the handle, or found it lost. -/
def ends (i : Nat) : Entry → Bool
  | .unlocked j _ (.ok ()) => j = i
  | .extended j _ _ _ (.ok false) => j = i
  | _ => false

/-- The durations of an entry that was an extension of the handle and succeeded. -/
def renewal? (i : Nat) : Entry → Option (Duration × Duration)
  | .extended j atMost atLeast _ (.ok true) => if j = i then some (atMost, atLeast) else none
  | _ => none

end Entry

/-- Whether a provider remembers a name: since the cache was last cleared, an attempt for it has not failed. -/
def remembered (name : String) (past : List Entry) : Bool := past.foldl (Entry.remembers name) false

/-- The configurations that handles were given out with, the first one first. -/
def issued (past : List Entry) : List LockConfig := past.filterMap Entry.acquired?

/-- Whether a handle was released or found lost. -/
def ended (i : Nat) (past : List Entry) : Bool := past.any (Entry.ends i)

/-- A configuration is the one that a handle holds its lock with: that of the acquisition, with the durations of the
last extension that succeeded. -/
def IsCurrent (i : Nat) (past : List Entry) (first config : LockConfig) : Prop :=
  config.name = first.name ∧
    (config.atMost, config.atLeast) =
      (past.filterMap (Entry.renewal? i)).getLast?.getD (first.atMost, first.atLeast)

/-! ## What a request has to come to -/

/-- An attempt as it has to be. -/
structure Attempted (c : Client) (familiar : Bool) (config : LockConfig) (exchanges : List Exchange)
    (answer : Except LockError (Option Handle)) : Prop where
  /-- Where an insert takes over expired rows it is all that is sent. -/
  postgresql : c.dialect = .postgresql → ∃ e, exchanges = [e] ∧ c.Says .insert config e.statement
  /-- Otherwise a remembered name is updated, -/
  updates : c.dialect = .mysql → familiar = true → ∃ e, exchanges = [e] ∧ c.Says .update config e.statement
  /-- one that is not remembered is inserted, and updated if the insert is refused. -/
  inserts : c.dialect = .mysql → familiar = false → ∃ first, c.Says .insert config first.statement ∧
    ((¬ first.reply.Refuses ∧ exchanges = [first]) ∨
      first.reply.Refuses ∧ ∃ second, exchanges = [first, second] ∧ c.Says .update config second.statement)
  /-- The answer is what the last reply comes to. -/
  answered : ∃ e, exchanges.getLast? = some e ∧ e.reply.Means (answer.map Option.isSome)
  /-- A handle is a held one of the lock. -/
  handle : ∀ h, answer = .ok (some h) → h = .lease { config }

/-- A release as it has to be. -/
structure Unlocked (c : Client) (past : List Entry) (i : Nat) (first : LockConfig) (exchanges : List Exchange)
    (answer : Except LockError Unit) : Prop where
  /-- As long as the handle is held one statement is sent, and every reply but an error is as good as any other. -/
  held : ended i past = false → ∃ config e answered, IsCurrent i past first config ∧ exchanges = [e] ∧
    c.Says .unlock config e.statement ∧ e.reply.Means answered ∧ answer = answered.map fun _ => ()
  idle : ended i past = true → exchanges = [] ∧ answer = .ok ()

/-- An extension as it has to be. -/
structure Extended (c : Client) (past : List Entry) (i : Nat) (first : LockConfig) (atMost atLeast : Duration)
    (exchanges : List Exchange) (answer : Except LockError Bool) : Prop where
  /-- As long as the handle is held one statement is sent, with the new durations. -/
  held : ended i past = false → atLeast ≤ atMost → ∃ config e, config.name = first.name ∧ config.atMost = atMost ∧
    config.atLeast = atLeast ∧ exchanges = [e] ∧ c.Says .extend config e.statement ∧ e.reply.Means answer
  /-- Durations that do not suit each other are refused without one. -/
  unsuitable : ended i past = false → ¬ atLeast ≤ atMost →
    exchanges = [] ∧ answer = .error (.invalidConfiguration (.leastAboveMost first.name))
  idle : ended i past = true → exchanges = [] ∧ answer ≠ .ok true

/-- What a request has to come to, after some others. -/
def LawfulStep (c : Client) (past : List Entry) : Request → Entry → Prop
  | .tryLock config, entry => ∃ exchanges answer, entry = .attempted config exchanges answer ∧
    Attempted c (remembered config.name past) config exchanges answer
  | .clearCache, entry => entry = .cleared
  | .unlock i, entry =>
    match (issued past)[i]? with
    | none => entry = .nothing
    | some first => ∃ exchanges answer, entry = .unlocked i exchanges answer ∧ Unlocked c past i first exchanges answer
  | .extend i atMost atLeast, entry =>
    match (issued past)[i]? with
    | none => entry = .nothing
    | some first => ∃ exchanges answer, entry = .extended i atMost atLeast exchanges answer ∧
      Extended c past i first atMost atLeast exchanges answer

/-- What some requests have to come to, one after the other. -/
def Lawful (c : Client) (past : List Entry) : List Request → List Entry → Prop
  | [], [] => True
  | request :: requests, entry :: entries =>
    LawfulStep c past request entry ∧ Lawful c (past ++ [entry]) requests entries
  | _, _ => False

/-! ## Attempts -/

section

variable {σ : Type} {accessor : Accessor σ} {config : LockConfig} {registry : Registry} {s : σ}

/-- An attempt goes on to the update if its insert is answered `false`. -/
theorem acquire_refused (lasting : accessor.strategy.insertReclaims = false)
    (unknown : registry.contains config.name = false) (refused : (accessor.perform .insert config s).1 = .ok false) :
    let second := accessor.perform .update config (accessor.perform .insert config s).2
    (acquire accessor config registry s).1 = second.1 ∧ (acquire accessor config registry s).2.2 = second.2 := by
  rw [acquire_unknown lasting unknown, refused]
  dsimp only
  rcases (accessor.perform .update config (accessor.perform .insert config s).2).1 with fault | acquired <;>
    exact ⟨rfl, rfl⟩

/-- It is over with any other answer. -/
theorem acquire_settled (lasting : accessor.strategy.insertReclaims = false)
    (unknown : registry.contains config.name = false) (settled : (accessor.perform .insert config s).1 ≠ .ok false) :
    let first := accessor.perform .insert config s
    (acquire accessor config registry s).1 = first.1 ∧ (acquire accessor config registry s).2.2 = first.2 := by
  rw [acquire_unknown lasting unknown]
  revert settled
  dsimp only
  rcases (accessor.perform .insert config s).1 with fault | _ | _
  · exact fun _ => ⟨rfl, rfl⟩
  · exact fun settled => absurd rfl settled
  · exact fun _ => ⟨rfl, rfl⟩

/-- What is remembered after an attempt. -/
theorem contains_acquire (lasting : accessor.strategy.insertReclaims = false) (exchanges : List Exchange)
    (name : String) :
    let last := acquire accessor config registry s
    last.2.1.contains name = Entry.remembers name (registry.contains name)
      (.attempted config exchanges (Provider.answerOf config last.1)) := by
  cases known : registry.contains config.name with
  | true =>
    have familiar : (registry.contains name || decide (config.name = name)) = registry.contains name := by
      by_cases same : config.name = name
      · rw [← same, known, Bool.true_or]
      · simp [same]
    rw [acquire_known lasting known]
    dsimp only
    rcases (accessor.perform .update config s).1 with fault | _ | _
    · rfl
    · exact familiar.symm
    · exact familiar.symm
  | false =>
    have added : (registry.add config.name).contains name =
        (registry.contains name || decide (config.name = name)) := by
      rw [Registry.contains_add, Bool.or_comm, decide_eq_decide.mpr eq_comm]
    -- What is forgotten again was not remembered before.
    have withdrawn : ((registry.add config.name).remove config.name).contains name = registry.contains name := by
      rw [Registry.contains_remove, Registry.contains_add]
      by_cases same : name = config.name
      · simp [same, known]
      · simp [same]
    rw [acquire_unknown lasting known]
    dsimp only
    rcases (accessor.perform .insert config s).1 with fault | _ | _
    · rfl
    · rcases (accessor.perform .update config (accessor.perform .insert config s).2).1 with fault | _ | _
      · exact withdrawn
      · exact added
      · exact added
    · exact added

end

section

variable {c : Client} {config : LockConfig} {registry : Registry}

/-- What an attempt answers is what its last reply comes to. -/
theorem means_answerOf {reply : Reply} {answer : Except StoreFault Bool}
    (means : reply.Means (answer.mapError .storage)) :
    reply.Means ((Provider.answerOf config answer).map Option.isSome) := by
  have same : (Provider.answerOf config answer).map Option.isSome = answer.mapError .storage := by
    rcases answer with _ | _ | _ <;> rfl
  rw [same]
  exact means

/-- An attempt that sends one statement. -/
theorem attempted_once {familiar : Bool} {e : Exchange} {answer : Except StoreFault Bool}
    (means : e.reply.Means (answer.mapError .storage))
    (postgresql : c.dialect = .postgresql → c.Says .insert config e.statement)
    (updates : c.dialect = .mysql → familiar = true → c.Says .update config e.statement)
    (inserts : c.dialect = .mysql → familiar = false → c.Says .insert config e.statement ∧ ¬ e.reply.Refuses) :
    Attempted c familiar config [e] (Provider.answerOf config answer) where
  postgresql is_postgresql := ⟨e, rfl, postgresql is_postgresql⟩
  updates is_mysql known := ⟨e, rfl, updates is_mysql known⟩
  inserts is_mysql unknown := ⟨e, (inserts is_mysql unknown).1, .inl ⟨(inserts is_mysql unknown).2, rfl⟩⟩
  answered := ⟨e, rfl, means_answerOf means⟩
  handle _ acquired := Provider.eq_lease_of_answerOf acquired

/-- An attempt whose insert is refused. -/
theorem attempted_twice {first second : Exchange} {answer : Except StoreFault Bool} (is_mysql : c.dialect = .mysql)
    (inserts : c.Says .insert config first.statement) (refused : first.reply.Refuses)
    (updates : c.Says .update config second.statement) (means : second.reply.Means (answer.mapError .storage)) :
    Attempted c false config [first, second] (Provider.answerOf config answer) where
  postgresql other := by
    rw [is_mysql] at other
    cases other
  updates _ known := by cases known
  inserts _ _ := ⟨first, inserts, .inr ⟨refused, second, rfl, updates⟩⟩
  answered := ⟨second, rfl, means_answerOf means⟩
  handle _ acquired := Provider.eq_lease_of_answerOf acquired

/-- An attempt where an insert takes over expired rows. -/
theorem attempted_postgresql (is_postgresql : c.dialect = .postgresql) (accepted : checkTable c.table = .ok ())
    (familiar : Bool) (wire : Wire) :
    let last := acquire c.accessor config registry wire
    Attempted c familiar config (exchanged wire last.2.2) (Provider.answerOf config last.1) := by
  have other {P : Prop} (is_mysql : c.dialect = .mysql) : P := by
    rw [is_postgresql] at is_mysql
    cases is_mysql
  obtain ⟨e, sent, asks, means⟩ := c.perform_exchanges accepted .insert (other ·) config wire
  rw [acquire_reclaiming (Client.reclaiming is_postgresql)]
  dsimp only
  rw [sent]
  exact attempted_once means (fun _ => asks) (other ·) (other ·)

/-- An attempt for a name that is remembered. -/
theorem attempted_familiar (is_mysql : c.dialect = .mysql) (accepted : checkTable c.table = .ok ())
    (known : registry.contains config.name = true) (wire : Wire) :
    let last := acquire c.accessor config registry wire
    Attempted c true config (exchanged wire last.2.2) (Provider.answerOf config last.1) := by
  have other {P : Prop} (is_postgresql : c.dialect = .postgresql) : P := by
    rw [is_mysql] at is_postgresql
    cases is_postgresql
  obtain ⟨e, sent, asks, means⟩ := c.perform_exchanges accepted .update nofun config wire
  rw [acquire_known (Client.lasting is_mysql) known]
  dsimp only
  rw [sent]
  exact attempted_once means (other ·) (fun _ _ => asks) (fun _ => nofun)

/-- An attempt for a name that is not remembered. -/
theorem attempted_unfamiliar (is_mysql : c.dialect = .mysql) (accepted : checkTable c.table = .ok ())
    (unknown : registry.contains config.name = false) (wire : Wire) :
    let last := acquire c.accessor config registry wire
    Attempted c false config (exchanged wire last.2.2) (Provider.answerOf config last.1) := by
  have other {P : Prop} (is_postgresql : c.dialect = .postgresql) : P := by
    rw [is_mysql] at is_postgresql
    cases is_postgresql
  have inserts := says_operation c.dialect accepted c.holder .insert config
  let first := Backend.execute wire (c.dialect.operation c.table c.holder .insert config) (.rows 1)
  have refused_iff : (c.accessor.perform .insert config wire).1 = .ok false ↔ first.1.Refuses := by
    rw [← applied_insert_eq_false, ← is_mysql]
    rfl
  by_cases refused : first.1.Refuses
  · obtain ⟨answer, store⟩ := acquire_refused (Client.lasting is_mysql) unknown (refused_iff.mpr refused)
    dsimp only
    rw [answer, store]
    dsimp only [Client.accessor]
    rw [exchanged_execute_twice]
    exact attempted_twice is_mysql inserts refused (says_operation c.dialect accepted c.holder .update config)
      (applied_means nofun)
  · obtain ⟨answer, store⟩ := acquire_settled (Client.lasting is_mysql) unknown (mt refused_iff.mp refused)
    dsimp only
    rw [answer, store]
    dsimp only [Client.accessor]
    rw [exchanged_execute]
    exact attempted_once (applied_means fun violated => refused (.inr violated.2.2)) (other ·) (fun _ => nofun)
      (fun _ _ => ⟨inserts, refused⟩)

end

/-! ## Handles -/

section

variable {c : Client} {l : Lease} {config : LockConfig} {atMost atLeast : Duration}

/-- What a release of a held handle sends and comes to. -/
theorem unlock_held (accepted : checkTable c.table = .ok ()) (stage : Stage Wire) (held : l.state = .held) :
    let reply := l.unlock c.accessor stage
    (∃ e answered, exchanged stage.store reply.2.store = [e] ∧ c.Says .unlock l.config e.statement ∧
      e.reply.Means answered ∧ reply.1.1 = answered.map fun _ => ()) ∧
      reply.1.2.config = l.config ∧ (reply.1.2.state = .held ↔ reply.1.1 ≠ .ok ()) := by
  obtain ⟨e, sent, asks, means⟩ := c.perform_exchanges accepted .unlock nofun l.config stage.store
  obtain ⟨answer, store⟩ := Lease.unlock_held c.accessor stage held
  dsimp only
  rw [answer, store]
  revert means
  rcases (c.accessor.perform .unlock l.config stage.store).1 with fault | applied
  · exact fun means => ⟨⟨e, _, sent, asks, means, rfl⟩, rfl, iff_of_true held nofun⟩
  · exact fun means => ⟨⟨e, _, sent, asks, means, rfl⟩, rfl, iff_of_false nofun (fun failed => failed rfl)⟩

/-- What an extension of a held handle sends and comes to. -/
theorem extend_held (accepted : checkTable c.table = .ok ()) (stage : Stage Wire) (held : l.state = .held)
    (suits : l.config.withDurations atMost atLeast = .ok config) :
    let reply := l.extend c.accessor atMost atLeast stage
    (∃ e, exchanged stage.store reply.2.store = [e] ∧ c.Says .extend config e.statement ∧ e.reply.Means reply.1.1) ∧
      reply.1.2.config = (if reply.1.1 = .ok true then config else l.config) ∧
      (reply.1.2.state = .held ↔ reply.1.1 ≠ .ok false) := by
  obtain ⟨e, sent, asks, means⟩ := c.perform_exchanges accepted .extend nofun config stage.store
  obtain ⟨answer, store⟩ := Lease.extend_held c.accessor stage held suits
  dsimp only
  rw [answer, store]
  revert means
  rcases (c.accessor.perform .extend config stage.store).1 with fault | _ | _
  · exact fun means => ⟨⟨e, sent, asks, means⟩, rfl, iff_of_true held nofun⟩
  · exact fun means => ⟨⟨e, sent, asks, means⟩, rfl, iff_of_false nofun (fun kept => kept rfl)⟩
  · exact fun means => ⟨⟨e, sent, asks, means⟩, rfl, iff_of_true held nofun⟩

/-- An extension of a handle that is not held sends nothing. -/
theorem extend_idle (c : Client) (atMost atLeast : Duration) (stage : Stage Wire) (idle : l.state ≠ .held) :
    let reply := l.extend c.accessor atMost atLeast stage
    reply.2 = stage ∧ reply.1.2 = l ∧ reply.1.1 ≠ .ok true := by
  cases state : l.state with
  | held => exact absurd state idle
  | released =>
    rw [Lease.extend_released c.accessor stage atMost atLeast state]
    exact ⟨rfl, rfl, nofun⟩
  | lost =>
    rw [Lease.extend_lost c.accessor stage atMost atLeast state]
    exact ⟨rfl, rfl, nofun⟩

end

/-! ## What an entry changes -/

section

variable {past : List Entry} {entry : Entry} {i j : Nat} {first config : LockConfig}

theorem remembered_append (name : String) :
    remembered name (past ++ [entry]) = entry.remembers name (remembered name past) := by
  rw [remembered, List.foldl_append]
  rfl

theorem issued_append (past : List Entry) (entry : Entry) :
    issued (past ++ [entry]) = issued past ++ entry.acquired?.toList := by
  rw [issued, List.filterMap_append]
  cases acquired : entry.acquired? <;> simp [issued, acquired]

theorem ended_append : ended i (past ++ [entry]) = (ended i past || entry.ends i) := by
  simp [ended]

theorem IsCurrent.append (current : IsCurrent i past first config) (keeps : entry.renewal? i = none) :
    IsCurrent i (past ++ [entry]) first config := by
  obtain ⟨named, durations⟩ := current
  refine ⟨named, ?_⟩
  rw [List.filterMap_append, List.filterMap_cons_none keeps, List.filterMap_nil, List.append_nil]
  exact durations

theorem IsCurrent.renewed (named : config.name = first.name)
    (renews : entry.renewal? i = some (config.atMost, config.atLeast)) :
    IsCurrent i (past ++ [entry]) first config := by
  refine ⟨named, ?_⟩
  rw [List.filterMap_append, List.filterMap_cons_some renews, List.filterMap_nil, List.getLast?_concat,
    Option.getD_some]

/-- The handle that an entry is about. -/
def Entry.handle? : Entry → Option Nat
  | .unlocked i _ _ | .extended i _ _ _ _ => some i
  | .attempted _ _ _ | .cleared | .nothing => none

/-- An entry about no handle concerns none. -/
theorem Entry.aside (about : entry.handle? = none) (j : Nat) : entry.ends j = false ∧ entry.renewal? j = none := by
  cases entry with
  | unlocked | extended => cases about
  | attempted | cleared | nothing => exact ⟨rfl, rfl⟩

/-- An entry about a handle concerns neither the provider nor another handle. -/
theorem Entry.elsewhere (about : entry.handle? = some i) :
    entry.acquired? = none ∧ (∀ name known, entry.remembers name known = known) ∧
      ∀ j, j ≠ i → entry.ends j = false ∧ entry.renewal? j = none := by
  cases entry with
  | unlocked k _ answer =>
    cases about
    refine ⟨rfl, fun _ _ => rfl, fun j other => ⟨?_, rfl⟩⟩
    rcases answer with _ | _
    · rfl
    · exact decide_eq_false (Ne.symm other)
  | extended k _ _ _ answer =>
    cases about
    refine ⟨rfl, fun _ _ => rfl, fun j other => ?_⟩
    rcases answer with _ | _ | _
    · exact ⟨rfl, rfl⟩
    · exact ⟨decide_eq_false (Ne.symm other), rfl⟩
    · exact ⟨rfl, if_neg (Ne.symm other)⟩
  | attempted | cleared | nothing => cases about

end

/-! ## A whole session -/

/-- The provider and its handles are what the entries so far make of them. -/
structure Fits (c : Client) (past : List Entry) (session : Session) : Prop where
  provider : ∃ registry, session.provider = .plain registry ∧
    (c.dialect = .mysql → ∀ name, registry.contains name = remembered name past)
  length : session.handles.length = (issued past).length
  handle : ∀ i first, (issued past)[i]? = some first → ∃ l : Lease, session.handles[i]? = some (.lease l) ∧
    (l.state = .held ↔ ended i past = false) ∧ IsCurrent i past first l.config
  /-- Nothing has become of a handle that is not there. -/
  fresh : ∀ i, (issued past).length ≤ i → ended i past = false ∧ past.filterMap (Entry.renewal? i) = []

section

variable {c : Client} {past : List Entry} {session next : Session} {entry : Entry} {i : Nat} {first : LockConfig}
  {left : Lease}

theorem fits_opened (c : Client) (replies : List Reply) : Fits c [] (opened replies) where
  provider := ⟨.empty, rfl, fun _ _ => rfl⟩
  length := rfl
  handle i first given := by simp [issued] at given
  fresh i _ := ⟨rfl, rfl⟩

/-- An entry that does not concern a handle leaves what it was. -/
theorem untouched {l : Lease} (aside : entry.ends i = false ∧ entry.renewal? i = none)
    (was : (l.state = .held ↔ ended i past = false) ∧ IsCurrent i past first l.config) :
    (l.state = .held ↔ ended i (past ++ [entry]) = false) ∧ IsCurrent i (past ++ [entry]) first l.config := by
  refine ⟨?_, was.2.append aside.2⟩
  rw [ended_append, aside.1, Bool.or_false]
  exact was.1

theorem fresh_append (aside : entry.ends i = false ∧ entry.renewal? i = none)
    (fresh : ended i past = false ∧ past.filterMap (Entry.renewal? i) = []) :
    ended i (past ++ [entry]) = false ∧ (past ++ [entry]).filterMap (Entry.renewal? i) = [] := by
  rw [ended_append, List.filterMap_append, List.filterMap_cons_none aside.2, fresh.1, fresh.2, aside.1]
  exact ⟨rfl, rfl⟩

/-- An entry about a handle leaves everything else as it is. -/
theorem Fits.after_use (fits : Fits c past session) (given : (issued past)[i]? = some first)
    (about : entry.handle? = some i) (provider : next.provider = session.provider)
    (handles : next.handles = session.handles.set i (.lease left))
    (becomes : (left.state = .held ↔ ended i (past ++ [entry]) = false) ∧
      IsCurrent i (past ++ [entry]) first left.config) : Fits c (past ++ [entry]) next := by
  obtain ⟨unissued, unremembered, others⟩ := Entry.elsewhere about
  have same : issued (past ++ [entry]) = issued past := by simp [issued_append, unissued]
  have there : i < (issued past).length := (List.getElem?_eq_some_iff.mp given).choose
  constructor
  · obtain ⟨registry, plain, agrees⟩ := fits.provider
    refine ⟨registry, provider.trans plain, fun mysql name => ?_⟩
    rw [remembered_append, unremembered]
    exact agrees mysql name
  · rw [handles, List.length_set, same]
    exact fits.length
  · intro j first' given'
    rw [same] at given'
    by_cases mine : j = i
    · subst mine
      obtain rfl := Option.some.inj (given'.symm.trans given)
      rw [← fits.length] at there
      exact ⟨left, by simp [handles, there], becomes⟩
    · obtain ⟨l, held_at, was⟩ := fits.handle j first' given'
      refine ⟨l, ?_, untouched (others j mine) was⟩
      rw [handles, List.getElem?_set_ne (Ne.symm mine)]
      exact held_at
  · intro j beyond
    rw [same] at beyond
    exact fresh_append (others j (by omega)) (fits.fresh j beyond)

/-- An entry about no handle leaves the handles as they are, but for those that it gives out. -/
theorem Fits.attended (fits : Fits c past session) (about : entry.handle? = none) (registry : Registry)
    (provider : next.provider = .plain registry)
    (agrees : c.dialect = .mysql → ∀ name, registry.contains name = remembered name (past ++ [entry]))
    (handles : next.handles =
      session.handles ++ entry.acquired?.toList.map fun config => Handle.lease { config }) :
    Fits c (past ++ [entry]) next := by
  have aside := Entry.aside about
  have more := issued_append past entry
  constructor
  · exact ⟨registry, provider, agrees⟩
  · rw [handles, more, List.length_append, List.length_append, List.length_map, fits.length]
  · intro i first given
    rw [more] at given
    by_cases old : i < (issued past).length
    · rw [List.getElem?_append_left old] at given
      obtain ⟨l, held_at, was⟩ := fits.handle i first given
      refine ⟨l, ?_, untouched (aside i) was⟩
      rw [← fits.length] at old
      rw [handles, List.getElem?_append_left old]
      exact held_at
    · -- The handle is a new one, and no entry has been about its number.
      have beyond := Nat.le_of_not_lt old
      rw [List.getElem?_append_right beyond] at given
      obtain ⟨none_ended, none_renewed⟩ := fresh_append (aside i) (fits.fresh i beyond)
      refine ⟨{ config := first }, ?_, iff_of_true rfl none_ended, rfl, ?_⟩
      · rw [handles, List.getElem?_append_right (fits.length ▸ beyond), List.getElem?_map, fits.length, given]
        rfl
      · rw [none_renewed]
        rfl
  · intro i beyond
    rw [more, List.length_append] at beyond
    exact fresh_append (aside i) (fits.fresh i (by omega))

theorem Fits.tryLock (fits : Fits c past session) (accepted : checkTable c.table = .ok ()) (config : LockConfig) :
    LawfulStep c past (.tryLock config) (session.step c (.tryLock config)).1 ∧
      Fits c (past ++ [(session.step c (.tryLock config)).1]) (session.step c (.tryLock config)).2 := by
  obtain ⟨registry, plain, agrees⟩ := fits.provider
  let last := acquire c.accessor config registry session.stage.store
  have reply : (session.provider.tryLock c.accessor .zero config session.stage).1 =
      (Provider.answerOf config last.1, .plain last.2.1) := by
    rw [plain]
    exact Provider.tryLock_plain registry
  have store : (session.provider.tryLock c.accessor .zero config session.stage).2.store = last.2.2 := by
    rw [plain]
    exact Provider.tryPlain_state.2
  simp only [step, reply, store]
  constructor
  · refine ⟨_, _, rfl, ?_⟩
    cases dialect : c.dialect with
    | postgresql => exact attempted_postgresql dialect accepted _ session.stage.store
    | mysql =>
      rw [← agrees dialect]
      cases known : registry.contains config.name with
      | true => exact attempted_familiar dialect accepted known session.stage.store
      | false => exact attempted_unfamiliar dialect accepted known session.stage.store
  · refine fits.attended rfl last.2.1 rfl (fun mysql name => ?_) ?_
    · rw [remembered_append, ← agrees mysql]
      exact contains_acquire (Client.lasting mysql) _ name
    · rcases last.1 with _ | _ | _ <;> rfl

theorem Fits.clearCache (fits : Fits c past session) :
    Fits c (past ++ [.cleared]) (session.step c .clearCache).2 := by
  obtain ⟨registry, plain, -⟩ := fits.provider
  refine fits.attended rfl registry.clear ?_ (fun _ name => ?_) (List.append_nil _).symm
  · rw [step, plain]
    rfl
  · rw [remembered_append]
    rfl

/-- A request on a handle that is not there is none. -/
theorem Fits.nothing (fits : Fits c past session) : Fits c (past ++ [.nothing]) session := by
  obtain ⟨registry, plain, agrees⟩ := fits.provider
  refine fits.attended rfl registry plain (fun mysql name => ?_) (List.append_nil _).symm
  rw [remembered_append]
  exact agrees mysql name

theorem Fits.missing (fits : Fits c past session) (missing : (issued past)[i]? = none) :
    session.handles[i]? = none := by
  rw [List.getElem?_eq_none_iff, fits.length]
  exact List.getElem?_eq_none_iff.mp missing

theorem Fits.unlock (fits : Fits c past session) (accepted : checkTable c.table = .ok ()) (i : Nat) :
    LawfulStep c past (.unlock i) (session.step c (.unlock i)).1 ∧
      Fits c (past ++ [(session.step c (.unlock i)).1]) (session.step c (.unlock i)).2 := by
  cases given : (issued past)[i]? with
  | none =>
    simp only [step, LawfulStep, given, fits.missing given]
    exact ⟨trivial, fits.nothing⟩
  | some first =>
    obtain ⟨l, found, state, current⟩ := fits.handle i first given
    simp only [step, LawfulStep, given, found, Handle.unlock_lease]
    by_cases held : l.state = .held
    · have kept := state.mp held
      obtain ⟨⟨e, answered, sent, asks, means, answer⟩, same, becomes⟩ := unlock_held accepted session.stage held
      constructor
      · exact ⟨_, _, rfl, fun _ => ⟨l.config, e, answered, current, sent, asks, means, answer⟩,
          fun spent => absurd spent (Bool.eq_false_iff.mp kept)⟩
      · refine fits.after_use given rfl rfl rfl ⟨?_, ?_⟩
        · rw [becomes, ended_append, kept, Bool.false_or]
          rcases (l.unlock c.accessor session.stage).1.1 with _ | _ <;> simp [Entry.ends]
        · rw [same]
          exact current.append rfl
    · have spent := Bool.eq_true_of_not_eq_false (mt state.mpr held)
      rw [Lease.unlock_idle c.accessor session.stage held, exchanged_self]
      constructor
      · exact ⟨_, _, rfl, fun kept => absurd spent (Bool.eq_false_iff.mp kept), fun _ => ⟨rfl, rfl⟩⟩
      · refine fits.after_use given rfl rfl rfl ⟨iff_of_false held ?_, current.append rfl⟩
        rw [ended_append, spent]
        exact nofun

/-- A session after a use of a handle. -/
def used (session : Session) (i : Nat) (stage : Stage Wire) (left : Lease) : Session :=
  { stage, provider := session.provider, handles := session.handles.set i (.lease left) }

section

variable {l : Lease} {atMost atLeast : Duration} (fits : Fits c past session) (given : (issued past)[i]? = some first)
  (was : (l.state = .held ↔ ended i past = false) ∧ IsCurrent i past first l.config)

include fits given was

/-- An extension of a held handle, with durations that suit each other. -/
theorem Fits.extend_suitable (accepted : checkTable c.table = .ok ()) (held : l.state = .held)
    (suits : atLeast ≤ atMost) :
    let reply := l.extend c.accessor atMost atLeast session.stage
    let exchanges := exchanged session.stage.store reply.2.store
    Extended c past i first atMost atLeast exchanges reply.1.1 ∧
      Fits c (past ++ [.extended i atMost atLeast exchanges reply.1.1]) (session.used i reply.2 reply.1.2) := by
  obtain ⟨state, current⟩ := was
  have kept := state.mp held
  let config : LockConfig :=
    ⟨l.config.name, atMost, atLeast, l.config.name_ne_empty, l.config.name_length_le, suits⟩
  have made : l.config.withDurations atMost atLeast = .ok config :=
    LockConfig.withDurations_eq_ok_iff.mpr ⟨rfl, rfl, rfl⟩
  obtain ⟨⟨e, sent, asks, means⟩, same, becomes⟩ := extend_held accepted session.stage held made
  constructor
  · constructor
    · exact fun _ _ => ⟨config, e, current.1, rfl, rfl, sent, asks, means⟩
    · exact fun _ long => absurd suits long
    · exact fun spent => absurd spent (Bool.eq_false_iff.mp kept)
  · refine fits.after_use given rfl rfl rfl ⟨?_, ?_⟩
    · rw [becomes, ended_append, kept, Bool.false_or]
      rcases (l.extend c.accessor atMost atLeast session.stage).1.1 with _ | _ | _ <;> simp [Entry.ends]
    · rw [same]
      rcases (l.extend c.accessor atMost atLeast session.stage).1.1 with _ | _ | _
      · exact current.append rfl
      · exact current.append rfl
      · exact .renewed current.1 (if_pos rfl)

/-- An extension of a held handle, with durations that do not. -/
theorem Fits.extend_unsuitable (held : l.state = .held) (long : ¬ atLeast ≤ atMost) :
    let reply := l.extend c.accessor atMost atLeast session.stage
    let exchanges := exchanged session.stage.store reply.2.store
    Extended c past i first atMost atLeast exchanges reply.1.1 ∧
      Fits c (past ++ [.extended i atMost atLeast exchanges reply.1.1]) (session.used i reply.2 reply.1.2) := by
  obtain ⟨state, current⟩ := was
  have kept := state.mp held
  rw [Lease.extend_refused c.accessor session.stage held (Lease.withDurations_of_not_le long)]
  dsimp only
  rw [exchanged_self]
  constructor
  · constructor
    · exact fun _ suits => absurd suits long
    · exact fun _ _ => ⟨rfl, by rw [current.1]⟩
    · exact fun spent => absurd spent (Bool.eq_false_iff.mp kept)
  · refine fits.after_use given rfl rfl rfl ⟨iff_of_true held ?_, current.append rfl⟩
    rw [ended_append, kept]
    rfl

/-- An extension of a handle that was released or lost. -/
theorem Fits.extend_ended (idle : l.state ≠ .held) :
    let reply := l.extend c.accessor atMost atLeast session.stage
    let exchanges := exchanged session.stage.store reply.2.store
    Extended c past i first atMost atLeast exchanges reply.1.1 ∧
      Fits c (past ++ [.extended i atMost atLeast exchanges reply.1.1]) (session.used i reply.2 reply.1.2) := by
  obtain ⟨state, current⟩ := was
  have spent := Bool.eq_true_of_not_eq_false (mt state.mpr idle)
  obtain ⟨sent, same, refused⟩ := extend_idle c atMost atLeast session.stage idle
  dsimp only
  rw [sent, same, exchanged_self]
  constructor
  · constructor
    · exact fun kept => absurd spent (Bool.eq_false_iff.mp kept)
    · exact fun kept => absurd spent (Bool.eq_false_iff.mp kept)
    · exact fun _ => ⟨rfl, refused⟩
  · refine fits.after_use given rfl rfl rfl ⟨iff_of_false idle ?_, current.append ?_⟩
    · rw [ended_append, spent]
      exact nofun
    · revert refused
      rcases (l.extend c.accessor atMost atLeast session.stage).1.1 with _ | _ | _
      · exact fun _ => rfl
      · exact fun _ => rfl
      · exact fun refused => absurd rfl refused

end

theorem Fits.extend (fits : Fits c past session) (accepted : checkTable c.table = .ok ()) (i : Nat)
    (atMost atLeast : Duration) :
    LawfulStep c past (.extend i atMost atLeast) (session.step c (.extend i atMost atLeast)).1 ∧
      Fits c (past ++ [(session.step c (.extend i atMost atLeast)).1])
        (session.step c (.extend i atMost atLeast)).2 := by
  cases given : (issued past)[i]? with
  | none =>
    simp only [step, LawfulStep, given, fits.missing given]
    exact ⟨trivial, fits.nothing⟩
  | some first =>
    obtain ⟨l, found, was⟩ := fits.handle i first given
    simp only [step, LawfulStep, given, found, Handle.extend_lease]
    by_cases held : l.state = .held
    · by_cases suits : atLeast ≤ atMost
      · exact (fits.extend_suitable given was accepted held suits).imp_left fun extended => ⟨_, _, rfl, extended⟩
      · exact (fits.extend_unsuitable given was held suits).imp_left fun extended => ⟨_, _, rfl, extended⟩
    · exact (fits.extend_ended given was held).imp_left fun extended => ⟨_, _, rfl, extended⟩

/-- Every request comes to what it has to, and keeps everything in accord. -/
theorem Fits.step (fits : Fits c past session) (accepted : checkTable c.table = .ok ()) (request : Request) :
    LawfulStep c past request (session.step c request).1 ∧
      Fits c (past ++ [(session.step c request).1]) (session.step c request).2 := by
  cases request with
  | tryLock config => exact fits.tryLock accepted config
  | clearCache => exact ⟨rfl, fits.clearCache⟩
  | unlock i => exact fits.unlock accepted i
  | extend i atMost atLeast => exact fits.extend accepted i atMost atLeast

/-- So a whole session does. -/
theorem lawful_history (requests : List Request) (accepted : checkTable c.table = .ok ())
    (fits : Fits c past session) : Lawful c past requests (history c requests session) := by
  induction requests generalizing past session with
  | nil => trivial
  | cons request rest ih =>
    obtain ⟨lawful, fits⟩ := fits.step accepted request
    exact ⟨lawful, ih fits⟩

end

end Session

end Sql

/-- Whatever a database replies to the statements of a provider and its handles, every reply comes to what it says, and
no other statement is sent. -/
theorem replies_fail_closed (c : Sql.Client) (accepted : Sql.checkTable c.table = .ok ())
    (requests : List Sql.Session.Request) (replies : List Sql.Reply) :
    Sql.Session.Lawful c [] requests (Sql.Session.history c requests (.opened replies)) ∧
      ∀ now op config wire, (Backend.sql c.dialect c.table wire).perform c.holder now op config =
        ((c.accessor.perform op config wire).1, .sql c.dialect c.table (c.accessor.perform op config wire).2) :=
  ⟨Sql.Session.lawful_history requests accepted (Sql.Session.fits_opened c replies), fun _ _ _ _ => rfl⟩

/-- An insert that finds a row already there goes on to an update, whose row is the handle's. -/
theorem replies_fail_closed_takeover :
    let c : Sql.Client := ⟨.mysql, "shedlock", "node"⟩
    let requests : List Sql.Session.Request := [.tryLock .nightly, .unlock 0, .extend 0 .zero .zero]
    let replies : List Sql.Reply := [.error (.number 1062) "Duplicate entry", .rows 1, .rows 0]
    let entries := Sql.Session.history c requests (.opened replies)
    Sql.checkTable c.table = .ok () ∧ Sql.Session.Lawful c [] requests entries ∧
      ∃ insert update release, entries =
        [.attempted .nightly [⟨insert, .error (.number 1062) "Duplicate entry"⟩, ⟨update, .rows 1⟩]
          (.ok (some (.lease { config := .nightly }))), .unlocked 0 [⟨release, .rows 0⟩] (.ok ()),
          .extended 0 .zero .zero [] (.error (.handleReleased "backup"))] := by
  intro c requests replies entries
  have accepted : Sql.checkTable c.table = .ok () := by decide +kernel
  exact ⟨accepted, (replies_fail_closed c accepted requests replies).1, _, _, _, rfl⟩

end TaskLease

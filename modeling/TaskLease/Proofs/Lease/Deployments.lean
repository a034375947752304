import TaskLease.Proofs.Lease.ShardedStore

/-!
# Deployments on one hash server

Deployments that share a server tell their locks apart by their environments: the key of a lock is the key space, the
environment and the name, with colons in between. A colon may also stand in an environment or in a name, so a key need
not tell where the one ends and the other begins. `Client.key_eq_key_iff` says which locks have the same key.

Two deployments are `Isolated` if neither sees anything of the other in any run of both. `deployments_isolated_iff`:
they are so exactly if no environment is that of the other one with a colon and a short text behind it.
-/

namespace TaskLease

namespace Redis

/-- What a client asks of the server. -/
inductive Ask where
  | write (a : Access)
  /-- Look up the record of a lock. -/
  | lookUp (config : LockConfig)
deriving DecidableEq

/-- One request, and who makes it. -/
structure Request where
  client : Client
  ask : Ask
deriving DecidableEq

/-- What comes of a request. -/
inductive Answer where
  | written (answer : Except StoreFault Bool)
  | found (answer : Except StoreFault (Option LockRecord))
deriving DecidableEq

namespace Server

/-- Serves one request. -/
def serve (r : Request) (server : Server) : Answer × Server :=
  match r.ask with
  | .write a =>
    let reply := server.perform r.client a.holder a.now a.op a.config
    (.written reply.1, reply.2)
  | .lookUp config => (.found (server.find r.client config.name), server)

/-- The server after some requests, one after the other. -/
def after (requests : List Request) (server : Server) : Server := requests.foldl (fun s r => (s.serve r).2) server

/-- The answers that a client gets to its own requests. -/
def answersTo (c : Client) : List Request → Server → List Answer
  | [], _ => []
  | r :: rest, server =>
    let later := answersTo c rest (server.serve r).2
    if r.client = c then (server.serve r).1 :: later else later

end Server

/-- A client sees what it would see if nobody else made any requests. -/
structure Undisturbed (c : Client) (requests : List Request) : Prop where
  answers : Server.answersTo c requests .empty = Server.answersTo c (requests.filter (·.client = c)) .empty
  hashes : ∀ config : LockConfig, Server.fieldsOf c (Server.after requests .empty) config.name =
    Server.fieldsOf c (Server.after (requests.filter (·.client = c)) .empty) config.name

/-- In no run of two clients does either of them see anything of the other. -/
def Isolated (c d : Client) : Prop :=
  ∀ requests : List Request, (∀ r ∈ requests, r.client = c ∨ r.client = d) →
    Undisturbed c requests ∧ Undisturbed d requests

namespace Client

/-- The environment of a client is that of another one, followed by a colon and a text so short that it can be part of
the name of a lock. -/
def Within (d c : Client) : Prop :=
  ∃ inner : String, d.environment = c.environment ++ ":" ++ inner ∧ inner.length + 2 ≤ Refusal.maxNameLength

/-- Some lock of one client has the key of some lock of the other. -/
def Meets (c d : Client) : Prop := ∃ a b : LockConfig, c.key a.name = d.key b.name

variable {c d : Client} {m n : String}

/-! ## Keys -/

theorem key_toList (c : Client) (name : String) :
    (c.key name).toList = c.keySpace.toList ++ ':' :: (c.environment.toList ++ ':' :: name.toList) := by
  have text : c.key name = c.keySpace ++ ":" ++ c.environment ++ ":" ++ name := rfl
  simp [text]

/-- Two locks have the same key if they are the same, or if what one environment has more than the other stands in
front of the other's name. -/
theorem key_eq_key_iff (space : c.keySpace = d.keySpace) : c.key m = d.key n ↔
    (c.environment = d.environment ∧ m = n) ∨
      (∃ inner : String, d.environment = c.environment ++ ":" ++ inner ∧ m = inner ++ ":" ++ n) ∨
      ∃ inner : String, c.environment = d.environment ++ ":" ++ inner ∧ n = inner ++ ":" ++ m := by
  rw [← String.toList_inj, key_toList, key_toList, space, List.append_cancel_left_eq, List.cons.injEq,
    and_iff_right rfl, List.append_eq_append_iff]
  constructor
  · rintro (⟨_ | ⟨colon, inner⟩, longer, rest⟩ | ⟨_ | ⟨colon, inner⟩, longer, rest⟩)
    · refine .inl ⟨?_, ?_⟩
      · simpa [String.toList_inj] using longer.symm
      · simpa [String.toList_inj] using rest
    · obtain ⟨rfl, rest⟩ := List.cons.inj rest
      refine .inr (.inl ⟨String.ofList inner, ?_, ?_⟩)
      · simpa [← String.toList_inj] using longer
      · simpa [← String.toList_inj] using rest
    · refine .inl ⟨?_, ?_⟩
      · simpa [String.toList_inj] using longer
      · simpa [String.toList_inj] using rest.symm
    · obtain ⟨rfl, rest⟩ := List.cons.inj rest
      refine .inr (.inr ⟨String.ofList inner, ?_, ?_⟩)
      · simpa [← String.toList_inj] using longer
      · simpa [← String.toList_inj] using rest
  · rintro (⟨same, rfl⟩ | ⟨inner, longer, rfl⟩ | ⟨inner, longer, rfl⟩)
    · exact .inl ⟨[], by simp [same], rfl⟩
    · exact .inl ⟨':' :: inner.toList, by simp [longer], by simp⟩
    · exact .inr ⟨':' :: inner.toList, by simp [longer], by simp⟩

theorem Meets.symm (meets : c.Meets d) : d.Meets c := by
  obtain ⟨a, b, same⟩ := meets
  exact ⟨b, a, same.symm⟩

/-- A lock whose name begins like an environment of others goes by the key of one of theirs. -/
theorem Within.meets (space : c.keySpace = d.keySpace) (within : d.Within c) : c.Meets d := by
  obtain ⟨inner, longer, short⟩ := within
  have named : (inner ++ ":" ++ "n").length ≤ Refusal.maxNameLength := by
    simp only [String.length_append]
    exact short
  have not_empty : inner ++ ":" ++ "n" ≠ "" := by
    intro empty
    have none := congrArg String.length empty
    simp [String.length_append] at none
  let outer : LockConfig := ⟨inner ++ ":" ++ "n", .zero, .zero, not_empty, named, by decide⟩
  let nested : LockConfig := ⟨"n", .zero, .zero, by decide, by decide, by decide⟩
  exact ⟨outer, nested, (key_eq_key_iff space).mpr (.inr (.inl ⟨inner, longer, rfl⟩))⟩

/-- What an environment has more than another one stands in the name of a lock that has the same key as one of the
other's. -/
theorem within_of_name {config : LockConfig} {inner : String} (longer : d.environment = c.environment ++ ":" ++ inner)
    (name : config.name = inner ++ ":" ++ n) (not_empty : n ≠ "") : d.Within c := by
  refine ⟨inner, longer, ?_⟩
  have short := config.name_length_le
  have some_character : n.length ≠ 0 := fun none => not_empty (String.length_eq_zero_iff.mp none)
  rw [name] at short
  simp only [String.length_append] at short
  have colon : ":".length = 1 := rfl
  omega

theorem meets_iff (space : c.keySpace = d.keySpace) (other : c.environment ≠ d.environment) :
    c.Meets d ↔ c.Within d ∨ d.Within c := by
  constructor
  · rintro ⟨a, b, same⟩
    rcases (key_eq_key_iff space).mp same with ⟨alike, -⟩ | ⟨inner, longer, name⟩ | ⟨inner, longer, name⟩
    · exact absurd alike other
    · exact .inr (within_of_name longer name b.name_ne_empty)
    · exact .inl (within_of_name longer name a.name_ne_empty)
  · rintro (within | within)
    · exact (Within.meets space.symm within).symm
    · exact Within.meets space within

end Client

/-! ## Requests of others -/

section

variable {c : Client} {r : Request} {requests : List Request} {server server' : Server}

/-- A client finds the same under all names that a lock can have. -/
def Alike (c : Client) (server server' : Server) : Prop :=
  ∀ config : LockConfig, Server.fieldsOf c server config.name = Server.fieldsOf c server' config.name

/-- A request is answered by what it finds, and leaves the same there. -/
theorem Alike.serve (alike : Alike c server server') (own : r.client = c) :
    (server.serve r).1 = (server'.serve r).1 ∧ Alike c (server.serve r).2 (server'.serve r).2 := by
  obtain ⟨client, ask⟩ := r
  subst own
  cases ask with
  | lookUp config => exact ⟨congrArg Answer.found (Server.find_fields_congr (alike config)), alike⟩
  | write a =>
    refine ⟨congrArg Answer.written (Server.perform_fields_congr a.holder (alike a.config)).1, fun config => ?_⟩
    by_cases same : a.config.name = config.name
    · simp only [Server.serve, ← same]
      exact (Server.perform_fields_congr a.holder (alike a.config)).2
    · simp only [Server.serve, Server.fieldsOf_perform_of_ne a.holder same]
      exact alike config

/-- A write under another key leaves a hash alone. -/
theorem fieldsOf_perform_of_key_ne {d : Client} {name : String} {a : Access}
    (other : d.key a.config.name ≠ c.key name) :
    Server.fieldsOf c (server.perform d a.holder a.now a.op a.config).2 name = Server.fieldsOf c server name := by
  simp only [Server.perform, Server.reply, Client.command, Server.fieldsOf]
  split
  all_goals
    split
    · rfl
    · rw [Table.get?_insert_of_ne _ _ other]

/-- A request of somebody whose locks have other keys changes nothing for a client. -/
theorem Alike.serve_other (alike : Alike c server server') (apart : ¬ r.client.Meets c) :
    Alike c (server.serve r).2 server' := by
  obtain ⟨client, ask⟩ := r
  cases ask with
  | lookUp config => exact alike
  | write a =>
    intro config
    have other : client.key a.config.name ≠ c.key config.name := fun same => apart ⟨a.config, config, same⟩
    simp only [Server.serve, fieldsOf_perform_of_key_ne other]
    exact alike config

/-- Without the requests of those whose locks have other keys, a client gets the same answers and leaves the same. -/
theorem Alike.purge (alike : Alike c server server') (apart : ∀ r ∈ requests, r.client ≠ c → ¬ r.client.Meets c) :
    Server.answersTo c requests server = Server.answersTo c (requests.filter (·.client = c)) server' ∧
      Alike c (Server.after requests server) (Server.after (requests.filter (·.client = c)) server') := by
  induction requests generalizing server server' with
  | nil => exact ⟨rfl, alike⟩
  | cons r rest ih =>
    have later : ∀ r ∈ rest, r.client ≠ c → ¬ r.client.Meets c :=
      fun r member => apart r (List.mem_cons_of_mem _ member)
    by_cases own : r.client = c
    · obtain ⟨answer, next⟩ := alike.serve own
      obtain ⟨answers, left⟩ := ih next later
      rw [List.filter_cons_of_pos (by simp [own])]
      refine ⟨?_, left⟩
      rw [Server.answersTo, Server.answersTo, if_pos own, if_pos own, answer, answers]
    · obtain ⟨answers, left⟩ := ih (alike.serve_other (apart r List.mem_cons_self own)) later
      rw [List.filter_cons_of_neg (by simp [own])]
      refine ⟨?_, left⟩
      rw [Server.answersTo, if_neg own, answers]

theorem undisturbed_of_apart (apart : ∀ r ∈ requests, r.client ≠ c → ¬ r.client.Meets c) : Undisturbed c requests := by
  have alike : Alike c .empty .empty := fun _ => rfl
  obtain ⟨answers, hashes⟩ := alike.purge apart
  exact ⟨answers, hashes⟩

variable {d : Client}

theorem isolated_of_apart (apart : ¬ c.Meets d) : Isolated c d := by
  intro requests both
  constructor
  · refine undisturbed_of_apart fun r member other => ?_
    rw [(both r member).resolve_left other]
    exact fun meets => apart meets.symm
  · refine undisturbed_of_apart fun r member other => ?_
    rw [(both r member).resolve_right other]
    exact apart

/-- A lock that is acquired leaves a hash. -/
theorem fieldsOf_acquired (c : Client) (a : Access) (is_insert : a.op = .insert) (timely : 0 ≤ a.now.epochMillis) :
    Server.fieldsOf c (Server.after [⟨c, .write a⟩] .empty) a.config.name ≠ ∅ := by
  intro missing
  have nothing : Server.fieldsOf c .empty a.config.name = ∅ := rfl
  have shows := (agrees_run (d := a.toDemand) .insert timely (show Shows ∅ none from rfl)).2
  have named : _ = some a.config.name := Holds.name shows
  simp only [Server.after, List.foldl_cons, List.foldl_nil, Server.serve, Server.fieldsOf_perform, nothing,
    is_insert] at missing
  rw [missing] at named
  cases named

/-- Where two locks have one key, a lock that one client acquires is seen by the other. -/
theorem not_isolated_of_meets (other : c ≠ d) (meets : c.Meets d) : ¬ Isolated c d := by
  intro isolated
  obtain ⟨a, b, same⟩ := meets
  let acquisition : Access := { holder := "a", config := a, now := .epoch, strategy := .atomicProcedure, op := .insert }
  have timely : 0 ≤ acquisition.now.epochMillis := show 0 ≤ Instant.epoch.epochMillis by decide
  let requests : List Request := [⟨c, .write acquisition⟩]
  have seen := (isolated requests (by simp [requests])).2.hashes b
  have purged : requests.filter (·.client = d) = [] := by simp [requests, other]
  have shared : Server.fieldsOf d (Server.after requests .empty) b.name =
      Server.fieldsOf c (Server.after requests .empty) a.name := by
    rw [Server.fieldsOf, Server.fieldsOf, same]
  rw [purged, shared] at seen
  exact fieldsOf_acquired c acquisition rfl timely seen

end

end Redis

/-- Two deployments whose key spaces are the same and whose environments differ: there are locks of theirs that have one
key, and they see something of each other, exactly if the environment of one is that of the other with a colon and a
text behind it that is short enough for a name. -/
theorem deployments_isolated_iff (space first second : String) (other : first ≠ second) :
    let c : Redis.Client := ⟨space, first⟩
    let d : Redis.Client := ⟨space, second⟩
    (c.Meets d ↔ c.Within d ∨ d.Within c) ∧ (Redis.Isolated c d ↔ ¬ (c.Within d ∨ d.Within c)) := by
  intro c d
  have clients : c ≠ d := fun same => other (congrArg Redis.Client.environment same)
  have meets : c.Meets d ↔ c.Within d ∨ d.Within c := Redis.Client.meets_iff rfl other
  refine ⟨meets, ?_⟩
  rw [← meets]
  exact ⟨fun isolated common => Redis.not_isolated_of_meets clients common isolated, Redis.isolated_of_apart⟩

/-- Environments that differ from their first character on keep deployments apart. -/
theorem deployments_isolated_iff_unlike :
    "test" ≠ "live" ∧ Redis.Isolated ⟨"lock", "test"⟩ ⟨"lock", "live"⟩ := by
  have other : "test" ≠ "live" := by decide
  refine ⟨other, (deployments_isolated_iff "lock" "test" "live" other).2.mpr ?_⟩
  rintro (⟨inner, longer, -⟩ | ⟨inner, longer, -⟩)
  · have characters := congrArg String.toList longer
    simp at characters
  · have characters := congrArg String.toList longer
    simp at characters

/-- In the environment `a` a lock `b:c` is acquired. In the environment `a:b` that is a lock `c`, which is held then. -/
theorem nested_environments_meet :
    let lock (name : String) (accepted : name ≠ "" ∧ name.length ≤ 64) : LockConfig :=
      ⟨name, .ofSeconds 60, .zero, accepted.1, accepted.2, by decide⟩
    let outer : Redis.Client := ⟨"lock", "a"⟩
    let inner : Redis.Client := ⟨"lock", "a:b"⟩
    let acquire (holder : String) (config : LockConfig) : Redis.Ask :=
      .write { holder, config, now := .epoch, strategy := .atomicProcedure, op := .insert }
    let theirs : Redis.Request := ⟨outer, acquire "x" (lock "b:c" (by decide))⟩
    let ours : List Redis.Request :=
      [⟨inner, acquire "y" (lock "c" (by decide))⟩, ⟨inner, .lookUp (lock "c" (by decide))⟩]
    outer.environment ≠ inner.environment ∧ outer.key "b:c" = inner.key "c" ∧
      Redis.Server.answersTo inner ours .empty =
        [.written (.ok true), .found (.ok (some ⟨"c", Instant.epoch.add (.ofSeconds 60), .epoch, "y"⟩))] ∧
      Redis.Server.answersTo inner (theirs :: ours) .empty =
        [.written (.ok false), .found (.ok (some ⟨"b:c", Instant.epoch.add (.ofSeconds 60), .epoch, "x"⟩))] := by
  decide +kernel

end TaskLease

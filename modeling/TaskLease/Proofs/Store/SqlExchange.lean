import TaskLease.Proofs.Store.StatementLayout
import TaskLease.Store.Backend

/-!
# Exchanges with a database

What goes over the wire between a client and a database, and what the replies mean: `exchanged` reads off which
statements were sent from one state of the wire to another and what was replied to them, and `Reply.Means` says what a
reply comes to without regard to a dialect (`applied_means`). There is one reply that comes to something else, to an
insert only (`Reply.Violates`).
-/

namespace TaskLease

namespace Sql

/-- A holder, and the table that its statements are about. -/
structure Client where
  dialect : Dialect
  table : String
  holder : String
deriving DecidableEq, Repr

namespace Client

/-- The accessor of a client, whose state is the wire to the database. -/
def accessor (c : Client) : Accessor Wire where
  strategy := c.dialect.strategy
  perform op config wire :=
    let reply := Backend.execute wire (c.dialect.operation c.table c.holder op config) (.rows 1)
    (c.dialect.applied op reply.1, reply.2)

/-- A statement says what an operation of the client on a lock has to say. -/
def Says (c : Client) (op : Operation) (config : LockConfig) (s : Statement) : Prop :=
  s.Says c.dialect c.table c.holder op config

end Client

/-- A statement that was sent, and the reply to it. -/
structure Exchange where
  statement : Statement
  reply : Reply
deriving DecidableEq, Repr

/-- What was exchanged from one state of a wire to another. -/
def exchanged (before after : Wire) : List Exchange :=
  let sent := after.sent.drop before.sent.length
  sent.zipWith Exchange.mk (before.replies ++ List.replicate sent.length (.rows 1))

/-! ## Replies -/

/-- The errors that databases report where a row with the same key is there. -/
def Code.IsDuplicate (code : Code) : Prop :=
  code = .state "23505" ∨ ∃ n ∈ [1022, 1062, 1169, 1586, 1859], code = .number n

/-- A reply says that a row with the same key is there. -/
def Reply.Violates (reply : Reply) : Prop := ∃ code message, reply = .error code message ∧ code.IsDuplicate

/-- A reply is no error and counts no row. -/
def Reply.Idle (reply : Reply) : Prop := reply = .rows 0 ∨ ∃ cells, reply = .row cells

/-- A reply to an insert leaves the row to an update. -/
def Reply.Refuses (reply : Reply) : Prop := reply.Idle ∨ reply.Violates

/-- A reply is no answer, for a fault. -/
inductive Reply.Fails : Reply → StoreFault → Prop where
  | error (code : Code) (message : String) :
    Fails (.error code message) (.query s!"error returned from database: {message}")
  | closed : Fails .closed (.connection "the connection was lost")

/-- An answer is what a reply comes to, if every error is a failure. -/
structure Reply.Means (reply : Reply) (answer : Except LockError Bool) : Prop where
  applied : answer = .ok true ↔ ∃ count, reply = .rows count ∧ 0 < count
  ignored : answer = .ok false ↔ reply.Idle
  failed : ∀ e, answer = .error e ↔ ∃ fault, e = .storage fault ∧ reply.Fails fault

/-! ## The wire -/

section

variable (wire : Wire) (s t : Statement)

theorem execute_eq (idle : Reply) :
    Backend.execute wire s idle =
      (wire.replies.headD idle, { replies := wire.replies.tail, sent := wire.sent ++ [s] }) := by
  rcases wire with ⟨_ | ⟨reply, replies⟩, sent⟩ <;> rfl

@[simp] theorem exchanged_self : exchanged wire wire = [] := by simp [exchanged]

/-- A statement that is executed is exchanged for its reply. -/
theorem exchanged_execute :
    let reply := Backend.execute wire s (.rows 1)
    exchanged wire reply.2 = [⟨s, reply.1⟩] := by
  rcases wire with ⟨_ | ⟨reply, replies⟩, sent⟩ <;> simp [execute_eq, exchanged]

theorem exchanged_execute_twice :
    let first := Backend.execute wire s (.rows 1)
    let second := Backend.execute first.2 t (.rows 1)
    exchanged wire second.2 = [⟨s, first.1⟩, ⟨t, second.1⟩] := by
  rcases wire with ⟨_ | ⟨reply, _ | ⟨next, replies⟩⟩, sent⟩ <;> simp [execute_eq, exchanged]

end

/-! ## Answers -/

section

variable {dialect : Dialect} {op : Operation} {reply : Reply}

theorem isUniqueViolation_iff {code : Code} : code.isUniqueViolation = true ↔ code.IsDuplicate := by
  cases code <;> simp [Code.isUniqueViolation, Code.IsDuplicate]

/-- A number of rows means that some row was changed, or none. -/
theorem means_rows (count : Nat) : (Reply.rows count).Means (.ok (decide (0 < count))) where
  applied := by simp
  ignored := by simp [Reply.Idle]
  failed _ := ⟨nofun, nofun⟩

theorem means_row (cells : Table String Cell) : (Reply.row cells).Means (.ok false) where
  applied := ⟨nofun, nofun⟩
  ignored := iff_of_true rfl (.inr ⟨cells, rfl⟩)
  failed _ := ⟨nofun, nofun⟩

theorem Reply.Fails.unique {fault other : StoreFault} (fails : reply.Fails fault) (also : reply.Fails other) :
    fault = other := by
  cases fails <;> cases also <;> rfl

theorem means_fault {fault : StoreFault} (fails : reply.Fails fault) : reply.Means (.error (.storage fault)) where
  applied := by
    refine ⟨nofun, ?_⟩
    rintro ⟨count, rfl, -⟩
    cases fails
  ignored := by
    refine ⟨nofun, ?_⟩
    rintro (rfl | ⟨cells, rfl⟩) <;> cases fails
  failed e := by
    constructor
    · rintro ⟨⟩
      exact ⟨fault, rfl, fails⟩
    · rintro ⟨other, rfl, also⟩
      rw [fails.unique also]

/-- An operation is answered what the reply comes to, unless it is an insert that the dialect takes for refused. -/
theorem applied_means (strict : ¬ (dialect = .mysql ∧ op = .insert ∧ reply.Violates)) :
    reply.Means ((dialect.applied op reply).mapError .storage) := by
  cases reply with
  | rows count => exact means_rows count
  | row cells => exact means_row cells
  | closed => exact means_fault .closed
  | error code message =>
    have failed : dialect.applied op (.error code message) = .error _ :=
      if_neg fun ⟨mysql, insert, there⟩ => strict ⟨mysql, insert, code, message, rfl, isUniqueViolation_iff.mp there⟩
    rw [failed]
    exact means_fault (.error code message)

/-- An insert that does not take over expired rows is answered `false` exactly if it is refused. -/
theorem applied_insert_eq_false : Dialect.mysql.applied .insert reply = .ok false ↔ reply.Refuses := by
  cases reply with
  | rows count =>
    show Except.ok (decide (0 < count)) = .ok false ↔ _
    simp [Reply.Refuses, Reply.Idle, Reply.Violates]
  | row cells => exact iff_of_true rfl (.inl (.inr ⟨cells, rfl⟩))
  | closed => simp [Dialect.applied, Reply.Refuses, Reply.Idle, Reply.Violates]
  | error code message =>
    by_cases there : code.isUniqueViolation = true <;>
      simp [Dialect.applied, Reply.Refuses, Reply.Idle, Reply.Violates, ← isUniqueViolation_iff, there]

end

namespace Client

/-- An operation is one statement, and answered what the reply comes to, unless it may be an insert that is refused. -/
theorem perform_exchanges (c : Client) (accepted : checkTable c.table = .ok ()) (op : Operation)
    (strict : c.dialect = .mysql → op ≠ .insert) (config : LockConfig) (wire : Wire) :
    let reply := c.accessor.perform op config wire
    ∃ e, exchanged wire reply.2 = [e] ∧ c.Says op config e.statement ∧
      e.reply.Means (reply.1.mapError .storage) :=
  ⟨⟨_, _⟩, exchanged_execute .., says_operation c.dialect accepted c.holder op config,
    applied_means fun refused => strict refused.1 refused.2.1⟩

theorem reclaiming {c : Client} (postgresql : c.dialect = .postgresql) :
    c.accessor.strategy.insertReclaims = true := by
  rw [accessor, postgresql]
  rfl

theorem lasting {c : Client} (mysql : c.dialect = .mysql) : c.accessor.strategy.insertReclaims = false := by
  rw [accessor, mysql]
  rfl

end Client

end Sql

end TaskLease

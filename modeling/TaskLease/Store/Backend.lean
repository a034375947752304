import TaskLease.Store.FileStore
import TaskLease.Store.Memory
import TaskLease.Store.Redis.Server
import TaskLease.Store.Sql.Reply

/-!
# Backends

All stores behind one type, each with its state: records in memory, record files, hashes on a server,
rows in a database. The first two decide themselves. The others talk over a `Wire`, which keeps what was
sent and can be given replies that take the place of the server's.
-/

namespace TaskLease

/-- A connection to a server. -/
structure Wire (command reply : Type) where
  /-- Replies that take the place of the server's, the next one first. -/
  replies : List reply := []
  /-- The commands sent, the first one first. -/
  sent : List command := []

namespace Wire

variable {command reply σ : Type}

/-- Sends a command: the reply, from the server unless one is queued. -/
def exchange (w : Wire command reply) (c : command) (server : σ) (serve : σ → reply × σ) :
    reply × Wire command reply × σ :=
  let w := { w with sent := w.sent ++ [c] }
  match w.replies with
  | r :: rest => (r, { w with replies := rest }, server)
  | [] =>
    let (r, server) := serve server
    (r, w, server)

end Wire

/-- A connection to a hash server. -/
abbrev Redis.Wire := TaskLease.Wire Redis.Command Redis.Reply

/-- A connection to a database. -/
abbrev Sql.Wire := TaskLease.Wire Sql.Statement Sql.Reply

/-- A store with its state. -/
inductive Backend where
  /-- Records in memory; its accessors acquire with the given strategy. -/
  | memory (strategy : AcquireStrategy) (records : Records)
  | file (store : FileStore) (tree : FileTree)
  | redis (client : Redis.Client) (server : Redis.Server) (wire : Redis.Wire)
  /-- A database. It keeps no rows of its own and answers with what is queued, or with one changed row. -/
  | sql (dialect : Sql.Dialect) (table : String) (wire : Sql.Wire)

namespace Backend

instance : Inhabited Backend := ⟨.memory .insertThenUpdate ∅⟩

/-- The word for a kind of store. -/
def word : Backend → String
  | .memory .. => "memory"
  | .file .. => "file"
  | .redis .. => "redis"
  | .sql .postgresql .. => "postgresql"
  | .sql .mysql .. => "mysql"

/-- How a store decides who owns a lock. -/
def strategy : Backend → AcquireStrategy
  | .memory strategy _ => strategy
  | .file .. | .redis .. => .atomicProcedure
  | .sql dialect .. => dialect.strategy

/-- The files around a store: those that it is kept in, or else the given ones. -/
def files (otherwise : FileTree) : Backend → FileTree
  | .file _ tree => tree
  | _ => otherwise

/-- Sends a statement; `idle` is the reply if none is queued. -/
def execute (wire : Sql.Wire) (statement : Sql.Statement) (idle : Sql.Reply) :
    Sql.Reply × Sql.Wire :=
  let (reply, wire, ()) := wire.exchange statement () fun _ => (idle, ())
  (reply, wire)

/-- Performs one operation of a holder. `now` is the time by the clock of the store. -/
def perform (holder : String) (now : Instant) (op : Operation) (config : LockConfig) :
    Backend → Except StoreFault Bool × Backend
  | .memory strategy records =>
    let (answer, records) := records.perform strategy op { holder, config, now }
    (.ok answer, .memory strategy records)
  | .file store tree =>
    let (answer, tree) := store.perform op { holder, config, now } tree
    (answer, .file store tree)
  | .redis client server wire =>
    let command := client.command holder op config
    let (reply, wire, server) := wire.exchange command server fun s => s.reply now command
    (reply.toApplied, .redis client server wire)
  | .sql dialect table wire =>
    let (reply, wire) := execute wire (dialect.operation table holder op config) (.rows 1)
    (dialect.applied op reply, .sql dialect table wire)

/-- The record of a lock. -/
def find (now : Instant) (name : String) : Backend → Except StoreFault (Option LockRecord) × Backend
  | .memory strategy records => (.ok (records.get? name), .memory strategy records)
  | .file store tree => (store.find name tree, .file store tree)
  | .redis client server wire =>
    let command := .readAll (client.key name)
    let (reply, wire, server) := wire.exchange command server fun s => s.reply now command
    (reply.toRecord name, .redis client server wire)
  | .sql dialect table wire =>
    let (reply, wire) := execute wire (dialect.find table name) (.rows 0)
    (reply.toRecord, .sql dialect table wire)

/-- Whether a store can be used. -/
def checkHealth (now : Instant) : Backend → Except StoreFault Unit × Backend
  | .memory strategy records => (.ok (), .memory strategy records)
  | .file store tree =>
    let (answer, tree) := store.checkHealth tree
    (answer, .file store tree)
  | .redis client server wire =>
    let (reply, wire, server) := wire.exchange .ping server fun s => s.reply now .ping
    (reply.toHealth, .redis client server wire)
  | .sql dialect table wire =>
    let (reply, wire) := execute wire Sql.probe (.rows 0)
    (reply.toHealth, .sql dialect table wire)

/-- Creates what the records are kept in, where it is missing. -/
def prepare : Backend → Except StoreFault Unit × Backend
  | .file store tree =>
    let (answer, tree) := store.prepare tree
    (answer, .file store tree)
  | .sql dialect table wire =>
    let (reply, wire) := execute wire (dialect.create table) (.rows 0)
    (reply.toDone, .sql dialect table wire)
  | backend => (.ok (), backend)

/-- Connects to a store and makes sure that it can be used. A database is not asked anything about a
table whose name is not let through. -/
def connect (now : Instant) : Backend → Except StoreFault Unit × Backend
  | .sql dialect table wire =>
    match Sql.checkTable table with
    | .ok () => (Backend.sql dialect table wire).checkHealth now
    | .error fault => (.error fault, .sql dialect table wire)
  | .file store tree =>
    match (Backend.file store tree).prepare with
    | (.ok (), backend) => backend.checkHealth now
    | failed => failed
  | backend => backend.checkHealth now

end Backend

end TaskLease

import TaskLease.Store.Redis.Script

/-!
# Locks on a hash server

A client sends commands and reads replies. `Client` says which command an operation sends and what a
reply to it means; `Server` is a server that keeps hashes and runs the scripts, so that an operation is
its command, the server's reply, and its meaning. Replies of any kind can take the place of the
server's: nothing but the integer one counts as an applied write.
-/

namespace TaskLease

namespace Redis

/-- A command sent to the server. -/
inductive Command where
  | eval (op : Operation) (key : String) (arguments : Arguments)
  | readAll (key : String)
  | ping
deriving DecidableEq, Repr

/-- A reply of the server, or the end of the connection. -/
inductive Reply where
  | integer (n : Int)
  | bulk (text : String)
  | hash (fields : Fields)
  | error (text : String)
  | closed
deriving DecidableEq, Repr

/-- The words of a command on the wire. -/
def Command.words : Command → List String
  | .eval op key arguments =>
    ["EVAL", source op, "1", key, String.ofList (Text.numeral arguments.millis), arguments.holder,
      arguments.name]
  | .readAll key => ["HGETALL", key]
  | .ping => ["PING"]

/-- A client of one deployment. -/
structure Client where
  /-- The first part of every key. -/
  keySpace : String
  /-- The second part of every key, which tells deployments on one server apart. -/
  environment : String
deriving DecidableEq, Repr

/-- The longest duration that scripts are given, in milliseconds: the greatest integer up to which
their numbers are exact. -/
def maxMillis : Nat := 0x20000000000000

/-- The milliseconds that a script is given for a duration. -/
def millis (d : Duration) : Nat := min d.millis maxMillis

namespace Client

/-- The key of a lock's hash. -/
def key (c : Client) (name : String) : String := s!"{c.keySpace}:{c.environment}:{name}"

/-- The command of an operation. -/
def command (c : Client) (holder : String) (op : Operation) (config : LockConfig) : Command :=
  .eval op (c.key config.name) ⟨millis (op.duration config), holder, config.name⟩

end Client

/-- The fault behind a reply that is no answer, if the reply is one. -/
def Reply.fault? : Reply → Option StoreFault
  | .error text => some (.query s!"the server answered: {text}")
  | .closed => some (.connection "the connection was closed")
  | _ => none

/-- The fault of a reply of the wrong kind. -/
def wrongReply : StoreFault := .query "the reply has another type than expected"

/-- An integer written with decimal digits and perhaps a sign. -/
def readInteger (text : String) : Option Int :=
  let unsigned (cs : List Char) : Option Nat :=
    if cs.isEmpty || !cs.all Char.isDigit then none else some (Text.value cs)
  let within (n : Int) : Option Int := 
    if -0x8000000000000000 ≤ n ∧ n ≤ 0x7FFFFFFFFFFFFFFF then some n else none
  match text.toList with
  | '-' :: cs => (unsigned cs).bind fun n => within (-(n : Int))
  | '+' :: cs => (unsigned cs).bind fun n => within n
  | cs => (unsigned cs).bind fun n => within n

/-- Whether the write of a script was applied. A text that holds an integer counts as that integer. -/
def Reply.toApplied (r : Reply) : Except StoreFault Bool :=
  match r.fault? with
  | some fault => .error fault
  | none =>
    match r with
    | .integer n => .ok (n = 1)
    | .bulk text =>
      match readInteger text with
      | some n => .ok (n = 1)
      | none => .error wrongReply
    | _ => .error wrongReply

/-- The instant in a field of a hash. -/
def instantOf (fields : Fields) (field : String) : Except StoreFault Instant :=
  match ((fields.get? field).bind readInteger).bind Instant.ofEpochMillis? with
  | some t => .ok t
  | none => .error (.serialization s!"invalid '{field}' in lock record")

/-- The record in the fields of a hash. A hash without a name is that of the lock asked for. -/
def recordOf (name : String) (fields : Fields) : Except StoreFault LockRecord := do
  let lockUntil ← instantOf fields "lock_until"
  let lockedAt ← instantOf fields "locked_at"
  match fields.get? "locked_by" with
  | some lockedBy => return ⟨(fields.get? "name").getD name, lockUntil, lockedAt, lockedBy⟩
  | none => throw (.serialization "missing 'locked_by' in lock record")

/-- The record in the reply to a request for a hash. A hash without fields is no record. -/
def Reply.toRecord (name : String) (r : Reply) : Except StoreFault (Option LockRecord) :=
  match r.fault? with
  | some fault => .error fault
  | none =>
    match r with
    | .hash fields =>
      if fields.entries.isEmpty then .ok none else (recordOf name fields).map some
    | _ => .error wrongReply

/-- Whether the server is there. Any simple value will do. -/
def Reply.toHealth (r : Reply) : Except StoreFault Unit :=
  match r.fault? with
  | some fault => .error fault
  | none =>
    match r with
    | .hash _ => .error wrongReply
    | _ => .ok ()

/-- A server that keeps hashes by key. -/
structure Server where
  hashes : Table String Fields
deriving DecidableEq, Repr

namespace Server

/-- A server without hashes. -/
def empty : Server := ⟨∅⟩

instance : Inhabited Server := ⟨empty⟩

/-- Runs a command at an instant. -/
def reply (server : Server) (now : Instant) : Command → Reply × Server
  | .eval op key arguments =>
    let before := (server.hashes.get? key).getD ∅
    let (answer, after) := run op arguments now before
    let server := if after = before then server else ⟨server.hashes.insert key after⟩
    match answer with
    | .ok n => (.integer n, server)
    | .error _ => (.error "ERR Error running script", server)
  | .readAll key => (.hash ((server.hashes.get? key).getD ∅), server)
  | .ping => (.bulk "PONG", server)

/-- Performs one operation of a holder. -/
def perform (c : Client) (holder : String) (now : Instant) (op : Operation) (config : LockConfig)
    (server : Server) : Except StoreFault Bool × Server :=
  let (answer, server) := server.reply now (c.command holder op config)
  (answer.toApplied, server)

/-- The record of a lock. -/
def find (c : Client) (name : String) (server : Server) : Except StoreFault (Option LockRecord) :=
  (Reply.hash ((server.hashes.get? (c.key name)).getD ∅)).toRecord name

end Server

end Redis

end TaskLease

import TaskLease.Lock.Basic

/-!
# Settings

What a deployment can choose: the store, the defaults of its locks, and what is logged. `check` refuses
settings that could not work, and names the first that it finds, in the order of the sections.
-/

namespace TaskLease

/-- The kinds of stores to choose from. -/
inductive StoreKind where
  | file
  | redis
  | mysql
  | postgresql
deriving DecidableEq, Repr

namespace StoreKind

/-- All kinds of stores. -/
def all : List StoreKind := [.file, .redis, .mysql, .postgresql]

/-- The word for a kind of stores. -/
def word : StoreKind → String
  | .file => "file"
  | .redis => "redis"
  | .mysql => "mysql"
  | .postgresql => "postgresql"

/-- The kind of stores that a word chooses. -/
def ofWord? (word : String) : Option StoreKind := all.find? fun kind => kind.word = word

end StoreKind

/-- Where record files lie. -/
structure FileSettings where
  dataDir : String := "./data"
deriving DecidableEq, Repr

/-- How a hash server is reached, and the keys of locks on it. -/
structure RedisSettings where
  url : String := "redis://127.0.0.1:6379"
  poolSize : Nat := 10
  /-- In seconds. -/
  connectTimeout : Nat := 5
  /-- The first part of every key. -/
  keySpace : String := "job-lock"
  /-- The second part of every key, which tells deployments on one server apart. -/
  environment : String := "default"
deriving DecidableEq, Repr

/-- How a database is reached, and its table of locks. -/
structure DatabaseSettings where
  url : String := ""
  table : String := "shedlock"
  minConnections : Nat := 1
  maxConnections : Nat := 10
  /-- In seconds. -/
  connectTimeout : Nat := 5
deriving DecidableEq, Repr

/-- The choice of a store. -/
structure StoreSettings where
  kind : StoreKind := .file
  file : FileSettings := {}
  redis : RedisSettings := {}
  mysql : DatabaseSettings := {}
  postgresql : DatabaseSettings := {}
deriving DecidableEq, Repr

/-- What holds for locks unless a caller says otherwise. -/
structure LockSettings where
  /-- The identity of the holder; one that is made up from host and process, if it is left open. -/
  holder : Option String := none
  atMost : Duration := .ofSeconds 600
  atLeast : Duration := .zero
  /-- The least time that a lock needs to be kept alive. -/
  keepAliveMinimum : Duration := .ofSeconds 30
deriving DecidableEq, Repr

/-- What is logged, and how. -/
structure LogSettings where
  level : String := "info"
  format : String := "text"
deriving DecidableEq, Repr

/-- All settings. -/
structure Settings where
  store : StoreSettings := {}
  lock : LockSettings := {}
  log : LogSettings := {}
deriving DecidableEq, Repr

/-- Why settings are refused. -/
inductive SettingFault where
  /-- A store that is to be used has no address. -/
  | urlEmpty (kind : StoreKind)
  | poolEmpty
  /-- The least number of connections is above the greatest, or that is zero. -/
  | connections (kind : StoreKind)
  | leastAboveMost
  | mostZero
  | keepAliveZero
  | holder (error : LockError)
  | logFormat (given : String)
deriving DecidableEq, Repr

/-- The text of a fault in the settings. -/
def SettingFault.message : SettingFault → String
  | .urlEmpty kind => s!"storage.{kind.word}.url cannot be empty"
  | .poolEmpty => "storage.redis.pool_size cannot be 0"
  | .connections kind =>
    s!"storage.{kind.word}: need 0 < max_connections and min_connections <= max_connections"
  | .leastAboveMost =>
    "lock.default_lock_at_least_for cannot exceed lock.default_lock_at_most_for"
  | .mostZero => "lock.default_lock_at_most_for cannot be 0"
  | .keepAliveZero => "lock.keep_alive_min_lock_at_most_for cannot be 0"
  | .holder error => s!"lock.holder: {error.message}"
  | .logFormat given => s!"observability.log_format must be 'text' or 'json', got '{given}'"

/-- Checks the settings of a database that is to be used. -/
def DatabaseSettings.check (kind : StoreKind) (s : DatabaseSettings) : Except SettingFault Unit :=
  if s.url = "" then .error (.urlEmpty kind)
  else if s.maxConnections = 0 ∨ s.maxConnections < s.minConnections then .error (.connections kind)
  else .ok ()

/-- Checks the settings of the store that is to be used. -/
def StoreSettings.check (s : StoreSettings) : Except SettingFault Unit :=
  match s.kind with
  | .file => .ok ()
  | .redis =>
    if s.redis.url = "" then .error (.urlEmpty .redis)
    else if s.redis.poolSize = 0 then .error .poolEmpty
    else .ok ()
  | .mysql => s.mysql.check .mysql
  | .postgresql => s.postgresql.check .postgresql

namespace LockSettings

/-- The identity that the settings give to the holder, or else the given one. -/
def resolveHolder (s : LockSettings) (otherwise : Holder) : Except LockError Holder :=
  match s.holder with
  | some text => Holder.make text
  | none => .ok otherwise

/-- Checks the defaults of locks. -/
def check (s : LockSettings) : Except SettingFault Unit :=
  if s.atMost < s.atLeast then .error .leastAboveMost
  else if s.atMost.isZero then .error .mostZero
  else if s.keepAliveMinimum.isZero then .error .keepAliveZero
  else match s.holder.map Holder.make with
    | some (.error e) => .error (.holder e)
    | _ => .ok ()

end LockSettings

/-- Checks what is said about logging. -/
def LogSettings.check (s : LogSettings) : Except SettingFault Unit :=
  if s.format = "text" ∨ s.format = "json" then .ok () else .error (.logFormat s.format)

/-- Checks all settings. -/
def Settings.check (s : Settings) : Except SettingFault Unit := do
  s.store.check
  s.lock.check
  s.log.check

end TaskLease

import TaskLease.Json.Skip
import TaskLease.Settings.Basic
import TaskLease.Settings.Value

/-!
# Settings from values

Every section is a table of fields, and a field that is not given has its default. Fields that nobody
knows are passed over.
-/

namespace TaskLease

/-- The limit of a number with thirty-two bits. -/
def limit32 : Nat := 0x100000000

/-- The limit of a number with sixty-four bits. -/
def limit64 : Nat := 0x10000000000000000

namespace FileSettings

/-- The settings in a value. -/
def ofValue? (strictness : Strictness) (value : SettingValue) : Option FileSettings := do
  let s ← SectionSettings.ofValue? strictness ["data_dir"] value
  return { dataDir := ← s.read "data_dir" (·.text? strictness) ({} : FileSettings).dataDir }

end FileSettings

namespace RedisSettings

/-- The settings in a value. -/
def ofValue? (strictness : Strictness) (value : SettingValue) : Option RedisSettings := do
  let s ← SectionSettings.ofValue? strictness
    ["url", "pool_size", "connect_timeout", "key_prefix", "environment"] value
  let default : RedisSettings := {}
  return {
    url := ← s.read "url" (·.text? strictness) default.url
    poolSize := ← s.read "pool_size" (·.natural? strictness limit64) default.poolSize
    connectTimeout := ←
      s.read "connect_timeout" (·.natural? strictness limit64) default.connectTimeout
    keySpace := ← s.read "key_prefix" (·.text? strictness) default.keySpace
    environment := ← s.read "environment" (·.text? strictness) default.environment }

end RedisSettings

namespace DatabaseSettings

/-- The settings in a value. -/
def ofValue? (strictness : Strictness) (value : SettingValue) : Option DatabaseSettings := do
  let s ← SectionSettings.ofValue? strictness
    ["url", "table_name", "min_connections", "max_connections", "connect_timeout"] value
  let default : DatabaseSettings := {}
  return {
    url := ← s.read "url" (·.text? strictness) default.url
    table := ← s.read "table_name" (·.text? strictness) default.table
    minConnections := ←
      s.read "min_connections" (·.natural? strictness limit32) default.minConnections
    maxConnections := ←
      s.read "max_connections" (·.natural? strictness limit32) default.maxConnections
    connectTimeout := ←
      s.read "connect_timeout" (·.natural? strictness limit64) default.connectTimeout }

end DatabaseSettings

namespace StoreSettings

/-- The kind of stores in a value. -/
def kind? (strictness : Strictness) (value : SettingValue) : Option StoreKind := do
  StoreKind.ofWord? (← value.choice? strictness)

/-- The settings in a value. -/
def ofValue? (strictness : Strictness) (value : SettingValue) : Option StoreSettings := do
  let s ← SectionSettings.ofValue? strictness ["backend", "file", "redis", "mysql", "postgresql"] value
  let default : StoreSettings := {}
  return {
    kind := ← s.read "backend" (kind? strictness) default.kind
    file := ← s.read "file" (FileSettings.ofValue? strictness) default.file
    redis := ← s.read "redis" (RedisSettings.ofValue? strictness) default.redis
    mysql := ← s.read "mysql" (DatabaseSettings.ofValue? strictness) default.mysql
    postgresql := ← s.read "postgresql" (DatabaseSettings.ofValue? strictness) default.postgresql }

end StoreSettings

namespace LockSettings

/-- The names of the settings, in order. -/
def fields : List String :=
  ["holder", "default_lock_at_most_for", "default_lock_at_least_for", "keep_alive_min_lock_at_most_for"]

/-- The settings in a value. -/
def ofValue? (strictness : Strictness) (value : SettingValue) : Option LockSettings := do
  let s ← SectionSettings.ofValue? strictness fields value
  let default : LockSettings := {}
  return {
    holder := ← s.read "holder" (·.optionalText? strictness) default.holder
    atMost := ← s.read "default_lock_at_most_for" (·.duration? strictness) default.atMost
    atLeast := ← s.read "default_lock_at_least_for" (·.duration? strictness) default.atLeast
    keepAliveMinimum := ←
      s.read "keep_alive_min_lock_at_most_for" (·.duration? strictness) default.keepAliveMinimum }

/-- The settings in the text of a JSON value, read strictly. -/
def read (text : String) : Option LockSettings :=
  (Json.readOnly fields text).bind fun value => ofValue? .strict (.ofJson value)

end LockSettings

namespace LogSettings

/-- The settings in a value. -/
def ofValue? (strictness : Strictness) (value : SettingValue) : Option LogSettings := do
  let s ← SectionSettings.ofValue? strictness ["log_level", "log_format"] value
  let default : LogSettings := {}
  return {
    level := ← s.read "log_level" (·.text? strictness) default.level
    format := ← s.read "log_format" (·.text? strictness) default.format }

end LogSettings

namespace Settings

/-- The settings in a value. -/
def ofValue? (strictness : Strictness) (value : SettingValue) : Option Settings := do
  let s ← SectionSettings.ofValue? strictness ["storage", "lock", "observability"] value
  let default : Settings := {}
  return {
    store := ← s.read "storage" (StoreSettings.ofValue? strictness) default.store
    lock := ← s.read "lock" (LockSettings.ofValue? strictness) default.lock
    log := ← s.read "observability" (LogSettings.ofValue? strictness) default.log }

end Settings

end TaskLease

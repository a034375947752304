import TaskLease.Proofs.Lease.HashStore
import TaskLease.Proofs.Lease.RecordStores

/-!
# Stores that keep names apart

A store holds something under every name: a record, a file, or a hash. A `ShardedStore` sees and changes nothing
but that in an operation, and looks a record up there alone. It need not be a lease, so nothing is asked of what a
file or a hash holds.

In memory the shard of a name is its record. In files it is the file at the path that the name is encoded to, and
on a hash server the hash at its key; both encodings keep names apart.
-/

namespace TaskLease

/-- A store of leases that keeps what it holds under a name apart from all other names. -/
structure ShardedStore (τ : Type) [LinearOrder τ] extends LeaseStore τ where
  find : State → String → Except StoreFault (Option LockRecord)
  /-- What can be held under a name. -/
  Shard : Type
  shard : State → String → Shard
  /-- What an operation answers and leaves depends on the shard of its own name only. -/
  perform_congr : ∀ {a s s'}, shard s a.config.name = shard s' a.config.name →
    (perform a s).1 = (perform a s').1 ∧
      shard (perform a s).2 a.config.name = shard (perform a s').2 a.config.name
  /-- It leaves the shards of other names alone. -/
  shard_perform_of_ne : ∀ {a s name}, a.config.name ≠ name → shard (perform a s).2 name = shard s name
  find_congr : ∀ {s s' name}, shard s name = shard s' name → find s name = find s' name

theorem Records.perform_congr (strategy : AcquireStrategy) (op : Operation) (d : Demand) {records records' : Records}
    (same : records.get? d.config.name = records'.get? d.config.name) :
    (records.perform strategy op d).1 = (records'.perform strategy op d).1 ∧
      (records.perform strategy op d).2.get? d.config.name = (records'.perform strategy op d).2.get? d.config.name := by
  rw [answer_perform, answer_perform, get?_perform_self, get?_perform_self, same]
  exact ⟨rfl, rfl⟩

/-- Records in memory, one under each name. -/
def ShardedStore.memory : ShardedStore Instant where
  toLeaseStore := .memory
  find := RecordStore.memory.find
  Shard := Option LockRecord
  shard records name := Table.get? (α := LockRecord) records name
  perform_congr same := (Records.perform_congr _ _ _ same).imp_left (congrArg Except.ok)
  shard_perform_of_ne other := Records.get?_perform_of_ne _ _ _ _ other
  find_congr same := congrArg Except.ok same

/-! ## Record files -/

/-- What is at the path of a record file. -/
structure FileShard where
  /-- Whether a file can be opened or created there. -/
  opens : Bool
  isDirectory : Bool
  content : Option ByteArray

namespace FileStore

variable (s : FileStore) {tree tree' : FileTree} {op : Operation} {d : Demand} {name : String}

/-- What is at the path of a lock's record file. -/
def shard (tree : FileTree) (name : String) : FileShard where
  opens := tree.canOpen (s.recordPath name)
  isDirectory := tree.isDirectory (s.recordPath name)
  content := tree.content? (s.recordPath name)

variable {s}

theorem isDirectory_perform (path : Path) : (s.perform op d tree).2.isDirectory path = tree.isDirectory path := by
  unfold perform transact
  dsimp only
  split <;> rfl

/-- The content of the own file after an operation. -/
theorem content_perform_self : (s.perform op d tree).2.content? (s.recordPath d.config.name) =
    if tree.canOpen (s.recordPath d.config.name) then
      some (RecordFile.transact (op.verdict true d) (tree.content? (s.recordPath d.config.name))).2
    else tree.content? (s.recordPath d.config.name) := by
  unfold perform transact
  dsimp only
  split
  · rw [content?_write, if_pos rfl]
  · rfl

theorem answer_perform : (s.perform op d tree).1 =
    if tree.canOpen (s.recordPath d.config.name) then
      (RecordFile.transact (op.verdict true d) (tree.content? (s.recordPath d.config.name))).1
    else .error (.fileIO "the record file can not be opened") := by
  unfold perform transact
  dsimp only
  split <;> rfl

theorem perform_shard_congr (same : s.shard tree d.config.name = s.shard tree' d.config.name) :
    (s.perform op d tree).1 = (s.perform op d tree').1 ∧
      s.shard (s.perform op d tree).2 d.config.name = s.shard (s.perform op d tree').2 d.config.name := by
  obtain ⟨opens, isDirectory, content⟩ := FileShard.mk.inj same
  rw [answer_perform, answer_perform, shard, shard, canOpen_perform, canOpen_perform, isDirectory_perform,
    isDirectory_perform, content_perform_self, content_perform_self, opens, isDirectory, content]
  exact ⟨rfl, rfl⟩

theorem shard_perform_of_ne (other : d.config.name ≠ name) :
    s.shard (s.perform op d tree).2 name = s.shard tree name := by
  have content : (s.perform op d tree).2.content? (s.recordPath name) = tree.content? (s.recordPath name) := by
    unfold perform transact
    dsimp only
    split
    · rw [content?_write, if_neg fun same => other (s.recordPath_injective same)]
    · rfl
  rw [shard, shard, canOpen_perform, isDirectory_perform, content]

theorem find_shard_congr (same : s.shard tree name = s.shard tree' name) : s.find name tree = s.find name tree' := by
  obtain ⟨-, isDirectory, content⟩ := FileShard.mk.inj same
  rw [find, find, isDirectory, content]

end FileStore

/-- Records in the files of a directory, one file for each name. -/
def ShardedStore.file (s : FileStore) : ShardedStore Instant where
  toLeaseStore := .file s
  find := (RecordStore.file s).find
  Shard := FileShard
  shard := s.shard
  perform_congr := FileStore.perform_shard_congr
  shard_perform_of_ne := FileStore.shard_perform_of_ne
  find_congr := FileStore.find_shard_congr

/-! ## Hashes -/

namespace Redis

namespace Server

variable {c : Client} {server server' : Server} {now : Instant} {op : Operation} {config : LockConfig}

/-- A script answers by what it finds in its hash. -/
theorem perform_fields_congr (holder : String) (same : fieldsOf c server config.name = fieldsOf c server' config.name) :
    (server.perform c holder now op config).1 = (server'.perform c holder now op config).1 ∧
      fieldsOf c (server.perform c holder now op config).2 config.name =
        fieldsOf c (server'.perform c holder now op config).2 config.name := by
  rw [fieldsOf_perform, fieldsOf_perform, same]
  refine ⟨?_, rfl⟩
  rw [fieldsOf, fieldsOf] at same
  simp only [perform, reply, Client.command, same]
  split <;> rfl

theorem find_fields_congr {name : String} (same : fieldsOf c server name = fieldsOf c server' name) :
    server.find c name = server'.find c name :=
  congrArg (fun fields => (Reply.hash fields).toRecord name) same

end Server

end Redis

/-- Hashes on a server, one for each name, reached by the clients of one deployment. -/
def ShardedStore.redis (c : Redis.Client) : ShardedStore Nat where
  toLeaseStore := .redis c
  find server name := server.find c name
  Shard := Redis.Fields
  shard := Redis.Server.fieldsOf c
  perform_congr same := Redis.Server.perform_fields_congr _ same
  shard_perform_of_ne other := Redis.Server.fieldsOf_perform_of_ne _ other
  find_congr := Redis.Server.find_fields_congr

end TaskLease

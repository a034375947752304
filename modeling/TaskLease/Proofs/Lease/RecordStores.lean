import TaskLease.Proofs.Lease.Store
import TaskLease.Proofs.Store.FileName
import TaskLease.Proofs.Store.RecordText
import TaskLease.Store.Memory

/-!
# Stores of records

Records in memory and records in files make stores of leases. In memory every name has a place; a record
file needs a directory to be in and a file name that is not too long, and what it holds has to be a record
or nothing. `FileStore.Readable` says that of a lock's file; transactions keep it, since what they write is
read back.
-/

namespace TaskLease

theorem Records.answer_perform (strategy : AcquireStrategy) (op : Operation) (d : Demand) (records : Records) :
    (records.perform strategy op d).1 =
      (op.verdict strategy.insertReclaims d (records.get? d.config.name)).answer := by
  unfold perform
  dsimp only
  split <;> rfl

/-- Records in memory, shared by accessors with any strategies. -/
def LeaseStore.memory : LeaseStore Instant where
  State := Records
  clock := .instants
  reclaims := AcquireStrategy.insertReclaims
  Sound _ _ := True
  Keeps _ _ := True
  Timely _ := True
  perform a records :=
    (.ok (records.perform a.strategy a.op a.toDemand).1, (records.perform a.strategy a.op a.toDemand).2)
  lease records name := (records.get? name).map LockRecord.lease
  reclaims_of_insertReclaims := id
  sound_perform _ _ := trivial
  keeps_perform := Iff.rfl
  perform_kept := by
    intro a records _ _ _
    rw [Records.answer_perform, (Operation.verdict_lease ..).1]
  lease_perform_kept := by
    intro a records _ _ _
    rw [Records.get?_perform_self]
    exact (Operation.verdict_lease ..).2
  perform_not_kept not_kept := absurd trivial not_kept
  lease_perform_of_ne other := congrArg _ (Records.get?_perform_of_ne _ _ _ _ other)

/-! ## Records in files -/

namespace RecordFile

variable {α : Type} {file : Option ByteArray} {found : Option LockRecord}

theorem read_getD (file : Option ByteArray) : readContent (file.getD .empty) = read file := by
  cases file with
  | none => exact readContent_empty
  | some content => rfl

/-- A transaction on a record file that can be read answers as decided. The file gets the text of the record that
is to be written, if there is one, and otherwise keeps its content; if there was none, it is empty. -/
theorem transact_of_read (decide : Option LockRecord → Verdict α) (readable : read file = .ok found) :
    transact decide file = (.ok (decide found).answer,
      ((decide found).write.map fun r => r.write.toByteArray).getD (file.getD .empty)) := by
  rw [transact, (read_getD file).trans readable]
  cases write : (decide found).write with
  | none => simp only [write, Option.map_none, Option.getD_none]
  | some next => simp only [write, Option.map_some, Option.getD_some]

/-- The file holds the record that was decided on. -/
theorem transact_readable (decide : Option LockRecord → Verdict α) (readable : read file = .ok found) :
    (transact decide file).1 = .ok (decide found).answer ∧
      readContent (transact decide file).2 = .ok ((decide found).after found) := by
  rw [transact_of_read decide readable]
  refine ⟨rfl, ?_⟩
  cases write : (decide found).write with
  | none =>
    rw [Verdict.after, write, Option.map_none, Option.getD_none, Option.none_or, read_getD, readable]
  | some next =>
    rw [Verdict.after, write, Option.map_some, Option.getD_some, Option.some_or, readContent_write]

end RecordFile

namespace FileStore

variable (s : FileStore)

/-- The record in a lock's file. -/
def recordIn (tree : FileTree) (name : String) : Except StoreFault (Option LockRecord) :=
  RecordFile.read (tree.content? (s.recordPath name))

/-- The record file of a lock can be read. -/
def Readable (tree : FileTree) (name : String) : Prop := ∃ found, s.recordIn tree name = .ok found

/-- The lease in a lock's file. -/
def leaseIn (tree : FileTree) (name : String) : Option (StoredLease Instant) :=
  (s.recordIn tree name).toOption.join.map LockRecord.lease

variable {s} {op : Operation} {d : Demand} {tree : FileTree} {name : String} {found : Option LockRecord}

theorem leaseIn_of_recordIn (readable : s.recordIn tree name = .ok found) :
    s.leaseIn tree name = found.map LockRecord.lease := by
  rw [leaseIn, readable]
  rfl

theorem canOpen_perform (path : Path) : (s.perform op d tree).2.canOpen path = tree.canOpen path := by
  unfold perform transact
  dsimp only
  split <;> rfl

theorem content?_write (path other : Path) (content : ByteArray) :
    (tree.write path content).content? other = if path = other then some content else tree.content? other :=
  Table.get?_insert ..

/-- An operation on a readable record file decides on the record in it. -/
theorem perform_readable (opens : tree.canOpen (s.recordPath d.config.name) = true)
    (readable : s.recordIn tree d.config.name = .ok found) :
    (s.perform op d tree).1 = .ok (op.verdict true d found).answer ∧
      s.recordIn (s.perform op d tree).2 d.config.name = .ok ((op.verdict true d found).after found) := by
  obtain ⟨answer, content⟩ := RecordFile.transact_readable (op.verdict true d) readable
  unfold perform FileStore.transact recordIn
  simp only [opens, if_true, content?_write]
  exact ⟨answer, content⟩

theorem perform_not_open (op : Operation) (closed : ¬ tree.canOpen (s.recordPath d.config.name) = true) :
    ∃ fault, s.perform op d tree = (.error fault, tree) := by
  refine ⟨.fileIO "the record file can not be opened", ?_⟩
  unfold perform FileStore.transact
  exact if_neg closed

theorem recordIn_perform_of_ne (other : d.config.name ≠ name) :
    s.recordIn (s.perform op d tree).2 name = s.recordIn tree name := by
  unfold perform FileStore.transact recordIn
  dsimp only
  split
  · have paths : s.recordPath d.config.name ≠ s.recordPath name := fun same => other (s.recordPath_injective same)
    rw [content?_write, if_neg paths]
  · rfl

theorem readable_perform (readable : s.Readable tree name) : s.Readable (s.perform op d tree).2 name := by
  obtain ⟨found, before⟩ := readable
  by_cases same : d.config.name = name
  · subst same
    by_cases opens : tree.canOpen (s.recordPath d.config.name) = true
    · exact ⟨_, (perform_readable opens before).2⟩
    · obtain ⟨fault, failed⟩ := perform_not_open op opens
      rw [failed]
      exact ⟨found, before⟩
  · rw [Readable, recordIn_perform_of_ne same]
    exact ⟨found, before⟩

/-- An operation succeeds only on a record file that can be read. -/
theorem readable_of_perform {applied : Bool} (answered : (s.perform op d tree).1 = .ok applied) :
    s.Readable tree d.config.name := by
  unfold perform FileStore.transact at answered
  dsimp only at answered
  split at answered
  · rw [RecordFile.transact, RecordFile.read_getD] at answered
    cases found : s.recordIn tree d.config.name with
    | ok found => exact ⟨_, found⟩
    | error fault =>
      rw [recordIn] at found
      rw [found] at answered
      cases answered
  · cases answered

/-- Where a record file can be opened, looking for the record reads it. -/
theorem find_eq_recordIn (opens : tree.canOpen (s.recordPath name) = true) : s.find name tree = s.recordIn tree name := by
  have no_directory : ¬ tree.isDirectory (s.recordPath name) = true := by
    intro directory
    rw [FileTree.canOpen] at opens
    split at opens
    · cases opens
    · simp [directory] at opens
  unfold find
  exact if_neg no_directory

theorem find_of_recordIn (opens : tree.canOpen (s.recordPath name) = true)
    (readable : s.recordIn tree name = .ok found) : s.find name tree = .ok found :=
  (find_eq_recordIn opens).trans readable

theorem recordIn_of_find {r : LockRecord} (found : s.find name tree = .ok (some r)) :
    s.recordIn tree name = .ok (some r) := by
  unfold find at found
  dsimp only at found
  split at found
  · cases found
  · exact found

/-- A record file that is missing can be read: it holds no record. -/
theorem readable_of_no_file (none : tree.content? (s.recordPath name) = none) : s.Readable tree name :=
  ⟨Option.none, by rw [recordIn, none]; rfl⟩

end FileStore

/-- Records in the files of a directory. -/
def LeaseStore.file (s : FileStore) : LeaseStore Instant where
  State := FileTree
  clock := .instants
  reclaims _ := true
  Sound := s.Readable
  Keeps tree name := tree.canOpen (s.recordPath name) = true
  Timely _ := True
  perform a tree := s.perform a.op a.toDemand tree
  lease := s.leaseIn
  reclaims_of_insertReclaims _ := rfl
  sound_perform readable _ := FileStore.readable_perform readable
  keeps_perform := by
    intro a tree name
    rw [FileStore.canOpen_perform]
  perform_kept := by
    intro a tree readable _ opens
    obtain ⟨found, before⟩ := readable
    rw [(FileStore.perform_readable opens before).1, FileStore.leaseIn_of_recordIn before,
      (Operation.verdict_lease ..).1]
  lease_perform_kept := by
    intro a tree readable _ opens
    obtain ⟨found, before⟩ := readable
    rw [FileStore.leaseIn_of_recordIn (FileStore.perform_readable opens before).2,
      FileStore.leaseIn_of_recordIn before]
    exact (Operation.verdict_lease ..).2
  perform_not_kept closed := FileStore.perform_not_open _ closed
  lease_perform_of_ne := by
    intro a tree name other
    rw [FileStore.leaseIn, FileStore.leaseIn, FileStore.recordIn_perform_of_ne other]

/-! ## Looking records up -/

/-- A store of leases that keeps records with instants in them, and finds them. -/
structure RecordStore extends LeaseStore Instant where
  find : State → String → Except StoreFault (Option LockRecord)
  clock_eq : clock = .instants
  timely : ∀ now, Timely now
  /-- The record found is that of the lease. -/
  find_kept : ∀ {s name}, Sound s name → Keeps s name →
    ∃ found, find s name = .ok found ∧ lease s name = found.map LockRecord.lease
  lease_of_find : ∀ {s name r}, find s name = .ok (some r) → lease s name = some r.lease

/-- Records in memory. -/
def RecordStore.memory : RecordStore where
  toLeaseStore := .memory
  find records name := .ok (Table.get? (α := LockRecord) records name)
  clock_eq := rfl
  timely _ := trivial
  find_kept := by
    intro records name _ _
    exact ⟨_, rfl, rfl⟩
  lease_of_find found := congrArg (Option.map LockRecord.lease) (Except.ok.inj found)

/-- Records in the files of a directory. -/
def RecordStore.file (s : FileStore) : RecordStore where
  toLeaseStore := .file s
  find tree name := s.find name tree
  clock_eq := rfl
  timely _ := trivial
  find_kept := by
    rintro tree name ⟨found, readable⟩ opens
    exact ⟨found, FileStore.find_of_recordIn opens readable, FileStore.leaseIn_of_recordIn readable⟩
  lease_of_find found := FileStore.leaseIn_of_recordIn (FileStore.recordIn_of_find found)

/-- The record that says what a lease does. -/
def StoredLease.record (l : StoredLease Instant) : LockRecord := ⟨l.name, l.lockUntil, l.lockedAt, l.lockedBy⟩

namespace RecordStore

/-- A store keeps a record under a name. -/
structure Has (store : RecordStore) (s : store.State) (name : String) (r : LockRecord) : Prop where
  sound : store.Sound s name
  keeps : store.Keeps s name
  lease : store.lease s name = some r.lease

/-- A record that is kept is found. -/
theorem Has.find {store : RecordStore} {s : store.State} {name : String} {r : LockRecord}
    (has : store.Has s name r) : store.find s name = .ok (some r) := by
  obtain ⟨found, answer, lease⟩ := store.find_kept has.sound has.keeps
  obtain ⟨other, rfl, same⟩ := Option.map_eq_some_iff.mp (lease.symm.trans has.lease)
  rw [answer, LockRecord.lease_injective same]

/-- Where the lease is the same, so is the record found. -/
theorem find_eq_of_lease {store : RecordStore} {s s' : store.State} {name : String} (sound : store.Sound s name)
    (keeps : store.Keeps s name) (sound' : store.Sound s' name) (keeps' : store.Keeps s' name)
    (same : store.lease s' name = store.lease s name) : store.find s' name = store.find s name := by
  obtain ⟨found, answer, lease⟩ := store.find_kept sound keeps
  obtain ⟨found', answer', lease'⟩ := store.find_kept sound' keeps'
  have records : found' = found := by
    apply Option.map_injective fun _ _ => LockRecord.lease_injective
    rw [← lease', ← lease, same]
  rw [answer, answer', records]

/-- Only what can be read is found, and only on what can be read an operation succeeds. -/
structure Strict (store : RecordStore) : Prop where
  sound_of_ok : ∀ {a s applied}, (store.perform a s).1 = .ok applied → store.Sound s a.config.name
  sound_of_find : ∀ {s name r}, store.find s name = .ok (some r) → store.Sound s name

theorem strict_memory : RecordStore.memory.Strict := ⟨fun _ => trivial, fun _ => trivial⟩

theorem strict_file (s : FileStore) : (RecordStore.file s).Strict :=
  ⟨FileStore.readable_of_perform, fun found => ⟨_, FileStore.recordIn_of_find found⟩⟩

end RecordStore

end TaskLease

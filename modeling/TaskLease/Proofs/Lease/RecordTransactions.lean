import TaskLease.Proofs.Lease.ShardedStore
import TaskLease.Store.Backend

/-!
# Transactions on record files

A record file is missing, or holds blanks, or holds the text of a record; `RecordFile.Holds` says which record
that is. Everything else is damage: bytes that are no text, or a text that is no record. A transaction on a
damaged file fails without a decision, and all files stay as they are. Otherwise it decides on what the file
holds, and either leaves the file alone or gives it exactly the text of the new record
(`record_files_transactional`). Damage stays until somebody repairs it (`damage_lasts`).
-/

namespace TaskLease

namespace Table

variable {κ α : Type} [DecidableEq κ]

/-- Binding a key to the value that it has changes nothing. -/
theorem insert_of_get? {t : Table κ α} {k : κ} {v : α} (bound : t.get? k = some v) : t.insert k v = t := by
  have same (es : List (κ × α)) (found : lookup k es = some v) : put k v es = es := by
    induction es with
    | nil => cases found
    | cons e rest ih =>
      obtain ⟨k', v'⟩ := e
      rw [lookup] at found
      rw [put]
      split at found
      · rename_i here
        rw [if_pos here, here, Option.some.inj found]
      · rename_i elsewhere
        rw [if_neg elsewhere, ih found]
  exact congrArg Table.mk (same t.entries bound)

/-- Only the last value that a key is bound to counts. -/
theorem insert_insert_self (t : Table κ α) (k : κ) (v w : α) : (t.insert k v).insert k w = t.insert k w := by
  have same (es : List (κ × α)) : put k w (put k v es) = put k w es := by
    induction es with
    | nil => simp [put]
    | cons e rest ih =>
      obtain ⟨k', v'⟩ := e
      by_cases here : k' = k
      · simp [put, here]
      · simp [put, here, ih]
  exact congrArg Table.mk (same t.entries)

end Table

/-! ## What a file holds -/

namespace RecordFile

/-- What a record file holds: no record if it is missing or there are only blanks in it, and otherwise the record
that its text describes. -/
inductive Holds : (file : Option ByteArray) → (found : Option LockRecord) → Prop
  | missing : Holds none none
  | blank (text : String) (blanks : ∀ c ∈ text.toList, Text.isBlank c = true) : Holds (some text.toByteArray) none
  | record (text : String) (r : LockRecord) (solid : ∃ c ∈ text.toList, Text.isBlank c = false)
      (describes : LockRecord.read text = some r) : Holds (some text.toByteArray) (some r)

/-- The content of a file is not the UTF-8 of any text. -/
def NoText (content : ByteArray) : Prop := ∀ text : String, text.toByteArray ≠ content

/-- The content of a file is a text, not of blanks alone, that does not describe a record. -/
def NoRecord (content : ByteArray) : Prop :=
  ∃ text : String, text.toByteArray = content ∧ (∃ c ∈ text.toList, Text.isBlank c = false) ∧
    LockRecord.read text = none

/-- A file holds something, or is damaged in one of two ways. -/
theorem holds_or_damaged (file : Option ByteArray) :
    (∃ found, Holds file found) ∨ ∃ content, file = some content ∧ (NoText content ∨ NoRecord content) := by
  cases file with
  | none => exact .inl ⟨none, .missing⟩
  | some content =>
    by_cases no_text : NoText content
    · exact .inr ⟨content, rfl, .inl no_text⟩
    obtain ⟨text, rfl⟩ : ∃ text : String, text.toByteArray = content := by
      simpa [NoText] using no_text
    by_cases blanks : ∀ c ∈ text.toList, Text.isBlank c = true
    · exact .inl ⟨none, .blank text blanks⟩
    have solid : ∃ c ∈ text.toList, Text.isBlank c = false := by
      simpa using blanks
    cases described : LockRecord.read text with
    | none => exact .inr ⟨_, rfl, .inr ⟨text, rfl, solid, described⟩⟩
    | some r => exact .inl ⟨some r, .record text r solid described⟩

theorem read_of_holds {file : Option ByteArray} {found : Option LockRecord} (holds : Holds file found) :
    read file = .ok found := by
  cases holds with
  | missing => rfl
  | blank text blanks =>
    have blank : Text.isBlankText text.toList = true := List.all_eq_true.mpr blanks
    rw [read, readContent, fromUTF8?_toByteArray]
    exact if_pos blank
  | record text r solid describes => exact readContent_eq_record_iff.mpr ⟨text, rfl, describes⟩

theorem readContent_of_noText {content : ByteArray} (no_text : NoText content) :
    ∃ detail, readContent content = .error (.fileIO detail) := by
  have undecodable : String.fromUTF8? content = none := by
    rw [String.fromUTF8?, dif_neg]
    intro valid
    exact no_text (String.fromUTF8 content valid) rfl
  exact ⟨_, by rw [readContent, undecodable]⟩

theorem readContent_of_noRecord {content : ByteArray} (no_record : NoRecord content) :
    ∃ detail, readContent content = .error (.serialization detail) := by
  obtain ⟨text, rfl, solid, undescribed⟩ := no_record
  refine ⟨"content is not a lock record", ?_⟩
  rw [readContent, fromUTF8?_toByteArray]
  simp only [isBlankText_eq_false solid, undescribed, Bool.false_eq_true, if_false]

end RecordFile

/-! ## The text of a record -/

/-- A record as it is laid out: an object with its four fields in a fixed order, each on a line of its own behind
two blanks. -/
def LockRecord.layout (r : LockRecord) : List Char :=
  "\x7b\n  \"name\": ".toList ++ Json.quote r.name ++
    ",\n  \"lock_until\": ".toList ++ Json.quote (Timestamp.write r.lockUntil) ++
    ",\n  \"locked_at\": ".toList ++ Json.quote (Timestamp.write r.lockedAt) ++
    ",\n  \"locked_by\": ".toList ++ Json.quote r.lockedBy ++ "\n\x7d".toList

theorem LockRecord.toList_write (r : LockRecord) : r.write.toList = r.layout := by
  unfold layout
  have texts := Json.prettyAt_texts ("name", r.name) [("lock_until", Timestamp.write r.lockUntil),
    ("locked_at", Timestamp.write r.lockedAt), ("locked_by", r.lockedBy)]
  have name : Json.quote "name" = ['"', 'n', 'a', 'm', 'e', '"'] := by decide
  have lock_until : Json.quote "lock_until" = "\"lock_until\"".toList := by decide
  have locked_at : Json.quote "locked_at" = "\"locked_at\"".toList := by decide
  have locked_by : Json.quote "locked_by" = "\"locked_by\"".toList := by decide
  have inner : Json.newline 1 = ['\n', ' ', ' '] := rfl
  have outer : Json.newline 0 = ['\n'] := rfl
  rw [write, toJson_eq, Json.pretty, String.toList_ofList, members, membersWith, texts]
  simp only [Json.memberTexts, Json.memberText, name, lock_until, locked_at, locked_by, inner, outer]
  simp

/-! ## Transactions -/

namespace FileStore

variable {s : FileStore} {tree : FileTree} {name : String} {found : Option LockRecord}

/-- The files after a transaction on a lock that wrote a record, or none. A file that was missing is there
afterwards in any case. -/
def filesAfter (s : FileStore) (tree : FileTree) (name : String) : (written : Option LockRecord) → FileTree
  | some r => tree.write (s.recordPath name) r.write.toByteArray
  | none =>
    if (tree.content? (s.recordPath name)).isSome then tree else tree.write (s.recordPath name) .empty

/-- Writing the content that a file has changes nothing. -/
theorem write_content {path : Path} {content : ByteArray} (same : tree.content? path = some content) :
    tree.write path content = tree := by
  rw [FileTree.write, Table.insert_of_get? same]

theorem transact_of_canOpen {α : Type} (opens : tree.canOpen (s.recordPath name) = true)
    (decide : Option LockRecord → Verdict α) :
    s.transact name decide tree =
      ((RecordFile.transact decide (tree.content? (s.recordPath name))).1,
        tree.write (s.recordPath name) (RecordFile.transact decide (tree.content? (s.recordPath name))).2) := by
  unfold transact
  exact if_pos opens

/-- Whatever is to be decided on it, and by whatever operation, a record file fails, and nothing changes. -/
structure Fails (s : FileStore) (tree : FileTree) (name : String) (fault : StoreFault) : Prop where
  transact : ∀ {α : Type} (decide : Option LockRecord → Verdict α), s.transact name decide tree = (.error fault, tree)
  perform : ∀ (op : Operation) (d : Demand), d.config.name = name → s.perform op d tree = (.error fault, tree)
  find : s.find name tree = .error fault

theorem fails_of_readContent {content : ByteArray} {fault : StoreFault}
    (opens : tree.canOpen (s.recordPath name) = true) (here : tree.content? (s.recordPath name) = some content)
    (damaged : RecordFile.readContent content = .error fault) : s.Fails tree name fault := by
  have failed {α : Type} (decide : Option LockRecord → Verdict α) :
      s.transact name decide tree = (.error fault, tree) := by
    rw [transact_of_canOpen opens, here, RecordFile.transact, Option.getD_some, damaged]
    rw [write_content here]
  refine ⟨failed, ?_, ?_⟩
  · rintro op d rfl
    exact failed (op.verdict true d)
  · rw [find_eq_recordIn opens, recordIn, here]
    exact damaged

/-- Every transaction on a record file decides on what the file holds, and the file is written if and only if that
is decided. -/
structure Decides (s : FileStore) (tree : FileTree) (name : String) (found : Option LockRecord) : Prop where
  transact : ∀ {α : Type} (decide : Option LockRecord → Verdict α),
    s.transact name decide tree = (.ok (decide found).answer, s.filesAfter tree name (decide found).write)
  perform : ∀ (op : Operation) (d : Demand), d.config.name = name →
    s.perform op d tree = (.ok (op.verdict true d found).answer, s.filesAfter tree name (op.verdict true d found).write)
  /-- An operation that answers no leaves the file alone. -/
  refused : ∀ (op : Operation) (d : Demand), d.config.name = name → (s.perform op d tree).1 = .ok false →
    (s.perform op d tree).2 = s.filesAfter tree name none
  /-- So does an unlock by somebody who does not own the lock. -/
  foreign : ∀ (r : LockRecord) (d : Demand), found = some r → d.config.name = name → r.lockedBy ≠ d.holder →
    s.perform .unlock d tree = (.ok false, tree)
  /-- An operation that answers yes has replaced all of the content. -/
  written : ∀ (op : Operation) (d : Demand), d.config.name = name → (s.perform op d tree).1 = .ok true →
    ∃ r, (op.verdict true d found).write = some r ∧
      (s.perform op d tree).2.content? (s.recordPath name) = some r.write.toByteArray
  find : s.find name tree = .ok found

theorem transact_of_recordIn {α : Type} (opens : tree.canOpen (s.recordPath name) = true)
    (readable : s.recordIn tree name = .ok found) (decide : Option LockRecord → Verdict α) :
    s.transact name decide tree = (.ok (decide found).answer, s.filesAfter tree name (decide found).write) := by
  rw [transact_of_canOpen opens, RecordFile.transact_of_read decide readable]
  cases (decide found).write with
  | some r => simp only [Option.map_some, Option.getD_some, filesAfter]
  | none =>
    simp only [Option.map_none, Option.getD_none, filesAfter]
    cases here : tree.content? (s.recordPath name) with
    | none => simp
    | some content => simp [write_content here]

theorem filesAfter_of_some {r : LockRecord} (readable : s.recordIn tree name = .ok (some r)) :
    s.filesAfter tree name none = tree := by
  have here : (tree.content? (s.recordPath name)).isSome = true := by
    cases content : tree.content? (s.recordPath name) with
    | some content => rfl
    | none =>
      rw [recordIn, content] at readable
      cases readable
  exact if_pos here

theorem decides_of_recordIn (opens : tree.canOpen (s.recordPath name) = true)
    (readable : s.recordIn tree name = .ok found) : s.Decides tree name found := by
  have performed (op : Operation) (d : Demand) (own : d.config.name = name) : s.perform op d tree =
      (.ok (op.verdict true d found).answer, s.filesAfter tree name (op.verdict true d found).write) := by
    subst own
    exact transact_of_recordIn opens readable (op.verdict true d)
  refine ⟨transact_of_recordIn opens readable, performed, ?_, ?_, ?_, find_of_recordIn opens readable⟩
  · intro op d own refused
    rw [performed op d own, Except.ok.injEq, Operation.verdict_answer, Option.isSome_eq_false_iff,
      Option.isNone_iff_eq_none] at refused
    rw [performed op d own, refused]
  · rintro r d rfl own other
    have refused : Operation.verdict true .unlock d (some r) = .refuse := if_neg other
    rw [performed .unlock d own, refused]
    exact congrArg _ (filesAfter_of_some readable)
  · intro op d own applied
    rw [performed op d own, Except.ok.injEq, Operation.verdict_answer, Option.isSome_iff_exists] at applied
    obtain ⟨r, written⟩ := applied
    refine ⟨r, written, ?_⟩
    rw [performed op d own, written]
    exact (content?_write ..).trans (if_pos rfl)

/-- A file that a transaction created, and wrote nothing to, counts as missing in all later ones. -/
theorem transact_created {α : Type} (opens : tree.canOpen (s.recordPath name) = true)
    (missing : tree.content? (s.recordPath name) = none) (decide : Option LockRecord → Verdict α) :
    s.transact name decide (tree.write (s.recordPath name) .empty) = s.transact name decide tree := by
  have still_opens : (tree.write (s.recordPath name) .empty).canOpen (s.recordPath name) = true := opens
  have created : (tree.write (s.recordPath name) .empty).content? (s.recordPath name) = some .empty :=
    (content?_write ..).trans (if_pos rfl)
  have same : RecordFile.transact decide (some .empty) = RecordFile.transact decide none := rfl
  have twice (content : ByteArray) : (tree.write (s.recordPath name) .empty).write (s.recordPath name) content =
      tree.write (s.recordPath name) content := by
    simp only [FileTree.write, Table.insert_insert_self]
  rw [transact_of_canOpen opens, transact_of_canOpen still_opens, missing, created, same, twice]

/-- What transactions make of the record file of a lock, whatever is in it. -/
structure Transactional (s : FileStore) (tree : FileTree) (name : String) : Prop where
  /-- Besides what follows there is nothing that a file can be. -/
  exhausted : (∃ found, RecordFile.Holds (tree.content? (s.recordPath name)) found) ∨
    ∃ content, tree.content? (s.recordPath name) = some content ∧
      (RecordFile.NoText content ∨ RecordFile.NoRecord content)
  noText : ∀ content, tree.content? (s.recordPath name) = some content → RecordFile.NoText content →
    ∃ detail, s.Fails tree name (.fileIO detail)
  noRecord : ∀ content, tree.content? (s.recordPath name) = some content → RecordFile.NoRecord content →
    ∃ detail, s.Fails tree name (.serialization detail)
  holds : ∀ found, RecordFile.Holds (tree.content? (s.recordPath name)) found → s.Decides tree name found
  /-- An empty file that a transaction created makes no difference. -/
  created : tree.content? (s.recordPath name) = none → ∀ {α : Type} (decide : Option LockRecord → Verdict α),
    s.transact name decide (tree.write (s.recordPath name) .empty) = s.transact name decide tree
  /-- Looking for a record changes nothing. -/
  looked : ∀ now, (Backend.find now name (.file s tree)).2 = .file s tree

theorem transactional (opens : tree.canOpen (s.recordPath name) = true) : s.Transactional tree name where
  exhausted := RecordFile.holds_or_damaged _
  noText := by
    intro content here no_text
    obtain ⟨detail, failed⟩ := RecordFile.readContent_of_noText no_text
    exact ⟨detail, fails_of_readContent opens here failed⟩
  noRecord := by
    intro content here no_record
    obtain ⟨detail, failed⟩ := RecordFile.readContent_of_noRecord no_record
    exact ⟨detail, fails_of_readContent opens here failed⟩
  holds _ holds := decides_of_recordIn opens (RecordFile.read_of_holds holds)
  created missing := transact_created opens missing
  looked _ := rfl

end FileStore

/-- Every record file that can be opened is transactional: it fails and stays as it is if it is damaged, and
otherwise the decision is on what it holds, and it gets exactly the text of the record that is written. -/
theorem record_files_transactional (s : FileStore) (tree : FileTree) (name : String)
    (opens : tree.canOpen (s.recordPath name) = true) :
    s.Transactional tree name ∧ ∀ r : LockRecord, r.write.toList = r.layout :=
  ⟨FileStore.transactional opens, LockRecord.toList_write⟩

/-- A record that was cut off can not be taken over, nor is it lost. -/
theorem record_files_transactional_cut :
    let s : FileStore := ⟨[], ["locks"]⟩
    let content := "\x7b\n  \"name\": \"backup\",\n  \"lock_un".toByteArray
    let tree : FileTree := ⟨[["locks"]], ⟨[(["locks", "backup.json"], content)]⟩⟩
    tree.canOpen (s.recordPath "backup") = true ∧ RecordFile.NoRecord content ∧
      ∃ detail, s.perform .insert ⟨"node", .nightly, .epoch⟩ tree = (.error (.serialization detail), tree) := by
  intro s content tree
  have path : s.recordPath "backup" = ["locks", "backup.json"] := by decide +kernel
  have opens : tree.canOpen (s.recordPath "backup") = true := by
    rw [path]
    decide +kernel
  have here : tree.content? (s.recordPath "backup") = some content := by
    rw [path]
    rfl
  have no_record : RecordFile.NoRecord content := by
    refine ⟨_, rfl, ⟨'"', ?_, by decide⟩, ?_⟩
    · decide +kernel
    · decide +kernel
  obtain ⟨detail, fails⟩ := (record_files_transactional s tree "backup" opens).1.noRecord content here no_record
  exact ⟨opens, no_record, detail, fails.perform .insert ⟨"node", .nightly, .epoch⟩ rfl⟩

namespace FileStore

variable {s : FileStore} {tree : FileTree} {name : String}

/-- The record file of a lock is there and can be opened, but no record can be read from it. -/
def Damaged (s : FileStore) (tree : FileTree) (name : String) : Prop :=
  tree.canOpen (s.recordPath name) = true ∧
    ∃ content, tree.content? (s.recordPath name) = some content ∧
      (RecordFile.NoText content ∨ RecordFile.NoRecord content)

theorem Damaged.fails (damaged : s.Damaged tree name) : ∃ fault, s.Fails tree name fault := by
  obtain ⟨opens, content, here, no_text | no_record⟩ := damaged
  · obtain ⟨detail, fails⟩ := (transactional opens).noText content here no_text
    exact ⟨_, fails⟩
  · obtain ⟨detail, fails⟩ := (transactional opens).noRecord content here no_record
    exact ⟨_, fails⟩

/-- No operation, on whatever lock, touches a damaged file. -/
theorem Damaged.content?_perform (damaged : s.Damaged tree name) (op : Operation) (d : Demand) :
    (s.perform op d tree).2.content? (s.recordPath name) = tree.content? (s.recordPath name) := by
  by_cases own : d.config.name = name
  · obtain ⟨fault, fails⟩ := damaged.fails
    rw [fails.perform op d own]
  · exact (FileShard.mk.inj (shard_perform_of_ne own)).2.2

theorem Damaged.perform (damaged : s.Damaged tree name) (op : Operation) (d : Demand) :
    s.Damaged (s.perform op d tree).2 name := by
  rw [Damaged, canOpen_perform, damaged.content?_perform]
  exact damaged

/-- The files after some operations of any holders. -/
def performAll (s : FileStore) : List (Operation × Demand) → FileTree → FileTree
  | [], tree => tree
  | (op, d) :: rest, tree => s.performAll rest (s.perform op d tree).2

end FileStore

/-- However many operations there are on the locks of a store, a damaged record file keeps its content, and fails
every operation on its lock. -/
theorem damage_lasts {s : FileStore} {tree : FileTree} {name : String} (damaged : s.Damaged tree name)
    (run : List (Operation × Demand)) :
    (s.performAll run tree).content? (s.recordPath name) = tree.content? (s.recordPath name) ∧
      ∃ fault, s.Fails (s.performAll run tree) name fault := by
  induction run generalizing tree with
  | nil => exact ⟨rfl, damaged.fails⟩
  | cons step rest ih =>
    obtain ⟨op, d⟩ := step
    obtain ⟨content, fails⟩ := ih (damaged.perform op d)
    exact ⟨content.trans (damaged.content?_perform op d), fails⟩

end TaskLease

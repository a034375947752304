import Mathlib.Data.String.Basic
import TaskLease.Proofs.Lease.ShardedStore

/-!
# Paths of record files

The name of a record file is spelled with ASCII letters, digits, hyphens and underscores in front of its suffix.
So it is one step of a path (`steps_fileName`), which leads from the directory of the record files to a file in
it, and never to the file that a health check makes there. Since lock names are read back from their spelling, no
two locks share a file: `record_files_apart` is what follows for a store.

A byte takes one or three characters, and a file name has to fit into 255 bytes. All names of ASCII characters
do, and those of up to twenty characters of any kind; `locks_usable_iff_short` says which of the others do not, and
what becomes of their locks.
-/

namespace TaskLease

/-! ## Steps -/

namespace Path

/-- Splitting goes through a text without slashes to its end, and keeps it whole. -/
theorem splitOnAux_of_no_slash (before after : List Char) (no_slash : '/' ∉ after) (done : List String) :
    (String.ofList (before ++ after)).splitOnAux "/" 0 ⟨String.utf8Len before⟩ 0 done =
      (String.ofList (before ++ after) :: done).reverse := by
  induction after generalizing before with
  | nil =>
    have whole := String.extract_of_valid [] before []
    rw [List.nil_append, String.utf8Len_nil, Nat.zero_add] at whole
    rw [String.splitOnAux, if_pos ((String.atEnd_of_valid before []).mpr rfl)]
    rw [List.append_nil] at whole ⊢
    exact congrArg (fun first => (first :: done).reverse) whole
  | cons c after ih =>
    rw [List.mem_cons, not_or] at no_slash
    have inside : ¬ String.Pos.Raw.atEnd (String.ofList (before ++ c :: after)) ⟨String.utf8Len before⟩ = true := by
      rw [String.atEnd_of_valid]
      exact List.cons_ne_nil c after
    have separator : String.Pos.Raw.get "/" 0 = '/' := by decide
    have other : ¬ (String.Pos.Raw.get (String.ofList (before ++ c :: after)) ⟨String.utf8Len before⟩ ==
        String.Pos.Raw.get "/" 0) = true := by
      rw [String.get_of_valid, separator, beq_iff_eq]
      exact Ne.symm no_slash.1
    have later := ih (before ++ [c]) no_slash.2
    rw [List.append_assoc, List.singleton_append, String.utf8Len_append] at later
    have here : (⟨String.utf8Len before⟩ : String.Pos.Raw).unoffsetBy 0 = ⟨String.utf8Len before⟩ := rfl
    rw [String.splitOnAux, if_neg inside, if_neg other, here, String.next_of_valid]
    simpa using later

/-- A text without slashes is a single step. -/
theorem steps_of_no_slash {text : String} (no_slash : '/' ∉ text.toList) : steps text = [text] := by
  have split := splitOnAux_of_no_slash [] text.toList no_slash []
  rw [List.nil_append, String.ofList_toList] at split
  exact split

end Path

/-! ## Spelling -/

namespace RecordFile

/-- The lock name that a text in front of a file name's suffix stands for. -/
def decodeName (stem : String) : Option String := do
  String.fromUTF8? ⟨(← decode stem.toList).toArray⟩

theorem decodeName_encodeName (name : String) : decodeName (encodeName name) = some name := by
  rw [decodeName, decode_encode, Option.bind_eq_bind, Option.bind_some]
  exact fromUTF8?_toByteArray name

theorem encodeName_eq_iff {a b : String} : encodeName a = encodeName b ↔ a = b :=
  ⟨encodeName_injective, congrArg encodeName⟩

/-- The characters that lock names are spelled with. -/
def isSpelling (c : Char) : Bool := c.isAlphanum || c == '-' || c == '_'

theorem isSpelling_digit : ∀ n < 16, isSpelling (Nat.digitChar n) = true := by decide

theorem isSpelling_encodeByte {byte : UInt8} {c : Char} (member : c ∈ encodeByte byte) : isSpelling c = true := by
  have bound := byte.toNat_lt
  unfold encodeByte at member
  split at member
  · rename_i kept
    rw [List.mem_singleton] at member
    subst member
    simp only [isKept, Bool.and_eq_true] at kept
    rw [isSpelling, kept.2, Bool.true_or]
  · simp only [List.mem_cons, List.not_mem_nil, or_false] at member
    rcases member with rfl | rfl | rfl
    · rfl
    · exact isSpelling_digit _ (by omega)
    · exact isSpelling_digit _ (by omega)

theorem isSpelling_encodeName (name : String) : ∀ c ∈ (encodeName name).toList, isSpelling c = true := by
  intro c member
  rw [encodeName, String.toList_ofList, List.mem_flatMap] at member
  obtain ⟨byte, -, member⟩ := member
  exact isSpelling_encodeByte member

theorem toList_fileName (name : String) : (fileName name).toList = (encodeName name).toList ++ ".json".toList :=
  String.toList_append

/-- A character that neither spells a name nor is in the suffix is not in any file name. -/
theorem not_mem_fileName (name : String) {c : Char} (foreign : isSpelling c = false)
    (no_suffix : c ∉ ".json".toList) : c ∉ (fileName name).toList := by
  rw [toList_fileName, List.mem_append, not_or]
  refine ⟨?_, no_suffix⟩
  intro member
  rw [isSpelling_encodeName name c member] at foreign
  cases foreign

theorem count_dot_fileName (name : String) : (fileName name).toList.count '.' = 1 := by
  have none : (encodeName name).toList.count '.' = 0 := by
    rw [List.count_eq_zero]
    intro member
    have spelled := isSpelling_encodeName name '.' member
    exact absurd spelled (by decide)
  rw [toList_fileName, List.count_append, none]
  rfl

/-- Every file name ends like its suffix, unlike all names with a meaning of their own. -/
theorem fileName_ne (name : String) {other : String} (unlike : other.toList.getLast? ≠ some 'n') :
    fileName name ≠ other := by
  rintro rfl
  rw [toList_fileName, List.getLast?_append] at unlike
  exact unlike rfl

theorem steps_fileName (name : String) : Path.steps (fileName name) = [fileName name] :=
  Path.steps_of_no_slash (not_mem_fileName name (by decide) (by decide))

/-- A name that a file can have in any directory, with no meaning of its own there. -/
structure PlainName (file : String) : Prop where
  /-- It is spelled with ASCII letters, digits, hyphens and underscores, and has a suffix. -/
  spelled : ∃ stem : String, file = stem ++ ".json" ∧ ∀ c ∈ stem.toList, isSpelling c = true
  one_dot : file.toList.count '.' = 1
  no_separator : '/' ∉ file.toList ∧ '\\' ∉ file.toList ∧ '\x00' ∉ file.toList
  one_step : Path.steps file = [file]
  not_here : Path.staysAt file = false
  not_up : file ≠ ".."
  not_probe : file ≠ ".health_check"

theorem plainName_fileName (name : String) : PlainName (fileName name) where
  spelled := ⟨encodeName name, rfl, isSpelling_encodeName name⟩
  one_dot := count_dot_fileName name
  no_separator := ⟨not_mem_fileName name (by decide) (by decide), not_mem_fileName name (by decide) (by decide),
    not_mem_fileName name (by decide) (by decide)⟩
  one_step := steps_fileName name
  not_here := by
    have empty : fileName name ≠ "" := fileName_ne name (by decide)
    have dot : fileName name ≠ "." := fileName_ne name (by decide)
    simp [Path.staysAt, empty, dot]
  not_up := fileName_ne name (by decide)
  not_probe := fileName_ne name (by decide)

end RecordFile

/-! ## Files of a store -/

namespace FileStore

variable {s : FileStore} {tree : FileTree} {name : String}

/-- A lock name whose record file can have its name. -/
def Accepts (name : String) : Prop :=
  (RecordFile.fileName name).utf8ByteSize ≤ FileTree.maxNameBytes

theorem canOpen_recordPath (directory : tree.isDirectory s.locks = true)
    (nothing : tree.hasPath (s.recordPath name) = false) (accepted : Accepts name) :
    tree.canOpen (s.recordPath name) = true := by
  rw [FileTree.hasPath, Bool.or_eq_false_iff] at nothing
  have size : (RecordFile.fileName name).utf8ByteSize ≤ FileTree.maxNameBytes := accepted
  rw [recordPath] at nothing ⊢
  simp [FileTree.canOpen, directory, nothing.1, size]

theorem not_canOpen_recordPath (too_long : ¬ Accepts name) : ¬ tree.canOpen (s.recordPath name) = true := by
  rw [Accepts] at too_long
  simp [FileTree.canOpen, recordPath, too_long]

theorem parent_recordPath : (s.recordPath name).parent = s.locks := by
  have up : RecordFile.fileName name ≠ ".." := RecordFile.fileName_ne name (by decide)
  have root : RecordFile.fileName name ≠ "/" := RecordFile.fileName_ne name (by decide)
  rw [Path.parent, recordPath, List.getLast?_concat]
  split
  · rename_i none
    cases none
  · rename_i last
    exact absurd (Option.some.inj last) up
  · rename_i last
    exact absurd (Option.some.inj last) root
  · exact List.dropLast_concat

theorem recordPath_ne_probePath : s.recordPath name ≠ s.probePath := by
  intro same
  have last := List.singleton_inj.mp (List.append_cancel_left same)
  exact RecordFile.fileName_ne name (by decide) last

/-- The name of a record file leads from the directory of the record files to a file in it. -/
theorem follow_fileName (directory : tree.isDirectory s.locks = true) (accepted : Accepts name) :
    (Path.steps (RecordFile.fileName name)).foldlM tree.step s.locks = some (s.recordPath name) := by
  have plain := RecordFile.plainName_fileName name
  have fits : (RecordFile.fileName name).utf8ByteSize ≤ FileTree.maxNameBytes := accepted
  rw [plain.one_step, List.foldlM_cons]
  simp [FileTree.step, directory, plain.not_here, plain.not_up, fits, recordPath]

theorem content?_checkHealth :
    (s.checkHealth tree).2.content? (s.recordPath name) = tree.content? (s.recordPath name) := by
  unfold checkHealth
  split
  · rfl
  split
  · exact (Table.get?_erase ..).trans (if_neg (Ne.symm recordPath_ne_probePath))
  · rfl

/-- The record files of a store lie in its directory, apart from each other and from the file that a health check
makes. -/
structure KeepsApart (s : FileStore) : Prop where
  parent : ∀ name, (s.recordPath name).parent = s.locks
  follow : ∀ (tree : FileTree) name, tree.isDirectory s.locks = true → Accepts name →
    (Path.steps (RecordFile.fileName name)).foldlM tree.step s.locks = some (s.recordPath name)
  apart : ∀ a b, s.recordPath a = s.recordPath b ↔ a = b
  /-- An operation leaves the files of all other locks alone. -/
  perform : ∀ (op : Operation) (d : Demand) (tree : FileTree) name, name ≠ d.config.name →
    (s.perform op d tree).2.content? (s.recordPath name) = tree.content? (s.recordPath name)
  probe : ∀ name, s.recordPath name ≠ s.probePath
  /-- A health check leaves the files of all locks alone. -/
  checkHealth : ∀ (tree : FileTree) name,
    (s.checkHealth tree).2.content? (s.recordPath name) = tree.content? (s.recordPath name)

theorem keepsApart (s : FileStore) : s.KeepsApart where
  parent _ := parent_recordPath
  follow _ _ := follow_fileName
  apart _ _ := ⟨s.recordPath_injective, congrArg s.recordPath⟩
  perform _ _ _ _ other := (FileShard.mk.inj (shard_perform_of_ne (Ne.symm other))).2.2
  probe _ := recordPath_ne_probePath
  checkHealth _ _ := content?_checkHealth

end FileStore

/-- Lock names are read back from the names of their record files, which are plain names, so the files of different
locks stay apart in the directory of their store. -/
theorem record_files_apart :
    (∀ name, RecordFile.decodeName (RecordFile.encodeName name) = some name) ∧
    (∀ a b, RecordFile.encodeName a = RecordFile.encodeName b ↔ a = b) ∧
    (∀ name, RecordFile.PlainName (RecordFile.fileName name)) ∧
    ∀ s : FileStore, s.KeepsApart :=
  ⟨RecordFile.decodeName_encodeName, fun _ _ => RecordFile.encodeName_eq_iff, RecordFile.plainName_fileName,
    FileStore.keepsApart⟩

/-! ## Long names -/

namespace RecordFile

/-- The characters that names are spelled with take one byte each. -/
theorem utf8Size_of_isSpelling {c : Char} (spelled : isSpelling c = true) : c.utf8Size = 1 := by
  have below {last : UInt32} (upTo : c.val ≤ last) (ascii : last ≤ 127) : c.val ≤ 127 := UInt32.le_trans upTo ascii
  rw [Char.utf8Size_eq_one_iff]
  rw [isSpelling, Bool.or_eq_true, Bool.or_eq_true, beq_iff_eq, beq_iff_eq] at spelled
  rcases spelled with (alphanumeric | rfl) | rfl
  · -- the classes of letters and digits are opened by definition
    rcases (Bool.or_eq_true _ _).mp alphanumeric with letter | digit
    · rcases (Bool.or_eq_true _ _).mp letter with upper | lower
      · exact below (of_decide_eq_true upper).2 (by decide)
      · exact below (of_decide_eq_true ((Bool.and_eq_true _ _).mp lower).2) (by decide)
    · exact below (of_decide_eq_true ((Bool.and_eq_true _ _).mp digit).2) (by decide)
  · decide
  · decide

theorem utf8Len_eq_length {cs : List Char} (single : ∀ c ∈ cs, c.utf8Size = 1) : String.utf8Len cs = cs.length := by
  induction cs with
  | nil => rfl
  | cons c cs ih =>
    rw [String.utf8Len_cons, single c List.mem_cons_self, ih fun c member => single c (List.mem_cons_of_mem _ member),
      List.length_cons]

/-- A text of ASCII characters has as many bytes as characters. -/
theorem utf8ByteSize_eq_length {text : String} (single : ∀ c ∈ text.toList, c.utf8Size = 1) :
    text.utf8ByteSize = text.length := by
  rw [← String.utf8Len_toList, utf8Len_eq_length single, String.length_toList]

theorem utf8Len_le (cs : List Char) : String.utf8Len cs ≤ 4 * cs.length := by
  induction cs with
  | nil => rfl
  | cons c cs ih =>
    have four := c.utf8Size_le_four
    rw [String.utf8Len_cons, List.length_cons]
    omega

/-- How many bytes of a lock name stand for themselves in the name of its file. -/
def keptBytes (name : String) : Nat := (bytes name).countP isKept

/-- How many bytes of a lock name are spelled out, with three characters each. -/
def escapedBytes (name : String) : Nat := (bytes name).countP fun byte => !isKept byte

theorem keptBytes_add_escapedBytes (name : String) : keptBytes name + escapedBytes name = name.utf8ByteSize := by
  have parts := List.length_eq_countP_add_countP isKept (l := bytes name)
  rw [keptBytes, escapedBytes]
  have size : (bytes name).length = name.utf8ByteSize := rfl
  simp only [← size, parts]
  simp

theorem length_encodeBytes (list : List UInt8) :
    (list.flatMap encodeByte).length = list.countP isKept + 3 * list.countP fun byte => !isKept byte := by
  induction list with
  | nil => rfl
  | cons byte rest ih =>
    rw [List.flatMap_cons, List.length_append, ih, List.countP_cons, List.countP_cons, encodeByte]
    cases isKept byte
    · simp
      omega
    · simp
      omega

theorem utf8ByteSize_fileName (name : String) :
    (fileName name).utf8ByteSize = keptBytes name + 3 * escapedBytes name + 5 := by
  have single : ∀ c ∈ (encodeName name).toList, c.utf8Size = 1 := fun c member =>
    utf8Size_of_isSpelling (isSpelling_encodeName name c member)
  have suffix : ".json".utf8ByteSize = 5 := by decide
  rw [fileName, String.utf8ByteSize_append, suffix, utf8ByteSize_eq_length single, encodeName, String.length_ofList,
    length_encodeBytes]
  rfl

end RecordFile

namespace FileStore

/-- The first holder that asks for a lock gets it, wherever the directory for its record file is there. -/
def Usable (c : LockConfig) : Prop :=
  ∀ (s : FileStore) (tree : FileTree), tree.isDirectory s.locks = true → tree.hasPath (s.recordPath c.name) = false →
    ∀ d : Demand, d.config = c → (s.perform .insert d tree).1 = .ok true

/-- Every operation on a lock fails and does nothing, whatever is there. -/
def Unusable (c : LockConfig) : Prop :=
  ∀ (s : FileStore) (tree : FileTree) (op : Operation) (d : Demand), d.config = c →
    ∃ detail, s.perform op d tree = (.error (.fileIO detail), tree)

theorem accepts_iff {name : String} :
    Accepts name ↔ RecordFile.keptBytes name + 3 * RecordFile.escapedBytes name ≤ 250 := by
  have limit : FileTree.maxNameBytes = 255 := rfl
  rw [Accepts, RecordFile.utf8ByteSize_fileName, limit]
  omega

/-- Even if all bytes have to be spelled out, there is room for 83 of them. -/
theorem accepts_of_bytes {name : String} (few : name.utf8ByteSize ≤ 83) : Accepts name := by
  have all := RecordFile.keptBytes_add_escapedBytes name
  rw [accepts_iff]
  omega

theorem accepts_of_ascii (c : LockConfig) (ascii : ∀ ch ∈ c.name.toList, ch.toNat < 128) : Accepts c.name := by
  have limit : Refusal.maxNameLength = 64 := rfl
  have short := c.name_length_le
  have size : c.name.utf8ByteSize = c.name.length := RecordFile.utf8ByteSize_eq_length fun ch member =>
    Char.utf8Size_eq_one_iff.mpr (UInt32.le_iff_toNat_le.mpr (Nat.le_of_lt_succ (ascii ch member)))
  exact accepts_of_bytes (by omega)

theorem accepts_of_length {name : String} (short : name.length ≤ 20) : Accepts name := by
  have bytes := RecordFile.utf8Len_le name.toList
  rw [String.utf8Len_toList, String.length_toList] at bytes
  exact accepts_of_bytes (by omega)

theorem usable_of_accepts {c : LockConfig} (accepted : Accepts c.name) : Usable c := by
  rintro s tree directory nothing d rfl
  have opens := canOpen_recordPath directory nothing accepted
  rw [FileTree.hasPath, Bool.or_eq_false_iff] at nothing
  have missing : tree.content? (s.recordPath d.config.name) = none :=
    Option.isNone_iff_eq_none.mp (Option.isSome_eq_false_iff.mp nothing.2)
  have readable : s.recordIn tree d.config.name = .ok none := by
    rw [recordIn, missing]
    rfl
  exact (perform_readable opens readable).1

theorem unusable_of_too_long {c : LockConfig} (too_long : ¬ Accepts c.name) : Unusable c := by
  rintro s tree op d rfl
  refine ⟨"the record file can not be opened", ?_⟩
  unfold perform transact
  exact if_neg (not_canOpen_recordPath too_long)

/-- A lock can not be both: its store may be empty. -/
theorem not_usable_of_unusable {c : LockConfig} (unusable : Unusable c) : ¬ Usable c := by
  intro usable
  have free : (⟨[["locks"]], ∅⟩ : FileTree).hasPath ((⟨[], ["locks"]⟩ : FileStore).recordPath c.name) = false := by
    simp [FileTree.hasPath, FileTree.isDirectory, recordPath, Path.root, FileTree.content?]
  have granted := usable ⟨[], ["locks"]⟩ ⟨[["locks"]], ∅⟩ (by decide) free ⟨"node", c, .epoch⟩ rfl
  obtain ⟨detail, failed⟩ := unusable ⟨[], ["locks"]⟩ ⟨[["locks"]], ∅⟩ .insert ⟨"node", c, .epoch⟩ rfl
  rw [failed] at granted
  cases granted

end FileStore

/-- A lock can be used on files exactly if the bytes of its name, those that are spelled out counted three times,
are at most 250. All names of ASCII characters are short enough, and all of up to twenty characters. -/
theorem locks_usable_iff_short (c : LockConfig) :
    (RecordFile.fileName c.name).utf8ByteSize =
      RecordFile.keptBytes c.name + 3 * RecordFile.escapedBytes c.name + 5 ∧
    (FileStore.Usable c ↔ RecordFile.keptBytes c.name + 3 * RecordFile.escapedBytes c.name ≤ 250) ∧
    (¬ FileStore.Usable c → FileStore.Unusable c) ∧
    ((∀ ch ∈ c.name.toList, ch.toNat < 128) ∨ c.name.length ≤ 20 → FileStore.Usable c) := by
  have unusable (not_usable : ¬ FileStore.Usable c) : FileStore.Unusable c :=
    FileStore.unusable_of_too_long fun accepted => not_usable (FileStore.usable_of_accepts accepted)
  refine ⟨RecordFile.utf8ByteSize_fileName c.name, ?_, unusable, ?_⟩
  · rw [← FileStore.accepts_iff]
    refine ⟨?_, FileStore.usable_of_accepts⟩
    intro usable
    by_contra too_long
    exact FileStore.not_usable_of_unusable (FileStore.unusable_of_too_long too_long) usable
  · rintro (ascii | short)
    · exact FileStore.usable_of_accepts (FileStore.accepts_of_ascii c ascii)
    · exact FileStore.usable_of_accepts (FileStore.accepts_of_length short)

/-- A name of 42 Cyrillic letters is accepted for a lock, but its file can not have a name of 257 bytes. -/
theorem cyrillic_name_unusable :
    ∃ c : LockConfig, LockConfig.make (String.ofList (List.replicate 42 'ж')) (.ofSeconds 60) .zero = .ok c ∧
      (RecordFile.fileName c.name).utf8ByteSize = 257 ∧
      ¬ (RecordFile.fileName c.name).utf8ByteSize ≤ FileTree.maxNameBytes ∧ FileStore.Unusable c := by
  have size : (RecordFile.fileName (String.ofList (List.replicate 42 'ж'))).utf8ByteSize = 257 := by decide +kernel
  have too_long : ¬ FileStore.Accepts (String.ofList (List.replicate 42 'ж')) := by
    rw [FileStore.Accepts, size]
    decide
  let c : LockConfig :=
    { name := String.ofList (List.replicate 42 'ж'), atMost := .ofSeconds 60, atLeast := .zero
      name_ne_empty := by simp
      name_length_le := by rw [String.length_ofList, List.length_replicate]; decide
      atLeast_le_atMost := by decide }
  exact ⟨c, c.make_self, size, too_long, FileStore.unusable_of_too_long too_long⟩

end TaskLease

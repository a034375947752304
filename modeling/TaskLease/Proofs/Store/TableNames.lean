import TaskLease.Store.Sql.Statement

/-!
# Names of tables

A name of a table is one or more identifiers with single dots between them, and an identifier is a letter of the ASCII
alphabet or an underscore, followed by letters, digits and underscores (`TableName`). `checkTable` takes a text apart
at all of its dots and looks at the first character and at the others of every part; that lets the names of tables
through and nothing else (`checkTable_eq_ok_iff`), since putting the parts together again gives the text.
-/

namespace TaskLease

namespace Sql

/-- A letter of the ASCII alphabet. -/
def Letter (c : Char) : Prop := ('A' ≤ c ∧ c ≤ 'Z') ∨ ('a' ≤ c ∧ c ≤ 'z')

/-- A letter or digit of ASCII, or an underscore. -/
def WordChar (c : Char) : Prop := Letter c ∨ ('0' ≤ c ∧ c ≤ '9') ∨ c = '_'

/-- A word that begins with a letter or an underscore. -/
def Identifier (word : String) : Prop :=
  ∃ first rest, word.toList = first :: rest ∧ (Letter first ∨ first = '_') ∧ ∀ c ∈ rest, WordChar c

/-- One or more identifiers with single dots between them. -/
def TableName (table : String) : Prop :=
  ∃ words : List String, words ≠ [] ∧ (∀ word ∈ words, Identifier word) ∧ table = ".".intercalate words

/-- A character of names of tables. -/
def TableChar (c : Char) : Prop := WordChar c ∨ c = '.'

section

variable {c : Char} {table : String}

instance : Decidable (Letter c) := inferInstanceAs (Decidable (_ ∨ _))

instance : Decidable (WordChar c) := inferInstanceAs (Decidable (_ ∨ _))

instance : Decidable (TableChar c) := inferInstanceAs (Decidable (_ ∨ _))

/-! ## Identifiers -/

theorem isAlpha_iff : c.isAlpha = true ↔ Letter c := by
  have upper : c.isUpper = true ↔ 'A' ≤ c ∧ c ≤ 'Z' := decide_eq_true_iff
  have lower : c.isLower = true ↔ 'a' ≤ c ∧ c ≤ 'z' :=
    Bool.and_eq_true_iff.trans (and_congr decide_eq_true_iff decide_eq_true_iff)
  exact Bool.or_eq_true_iff.trans (or_congr upper lower)

theorem isIdentifierStart_iff : isIdentifierStart c = true ↔ Letter c ∨ c = '_' := by
  rw [isIdentifierStart, Bool.or_eq_true, isAlpha_iff, beq_iff_eq]

theorem isIdentifierPart_iff : isIdentifierPart c = true ↔ WordChar c := by
  have digit : c.isDigit = true ↔ '0' ≤ c ∧ c ≤ '9' := by simp [Char.isDigit, Char.le_def]
  rw [isIdentifierPart, Char.isAlphanum, Bool.or_eq_true, Bool.or_eq_true, isAlpha_iff, digit, beq_iff_eq, or_assoc]
  rfl

theorem isIdentifier_iff {word : String} : isIdentifier word.toList = true ↔ Identifier word := by
  unfold Identifier
  cases word.toList with
  | nil => simp [isIdentifier]
  | cons first rest =>
    rw [isIdentifier, Bool.and_eq_true, isIdentifierStart_iff, List.all_eq_true]
    simp only [isIdentifierPart_iff]
    constructor
    · rintro ⟨start, others⟩
      exact ⟨first, rest, rfl, start, others⟩
    · rintro ⟨_, _, same, start, others⟩
      obtain ⟨rfl, rfl⟩ := List.cons.inj same
      exact ⟨start, others⟩

theorem Identifier.wordChar {word : String} (identifier : Identifier word) : ∀ c ∈ word.toList, WordChar c := by
  obtain ⟨first, rest, characters, start, others⟩ := identifier
  intro c member
  rw [characters] at member
  rcases List.mem_cons.mp member with rfl | later
  · exact start.imp_right .inr
  · exact others c later

theorem Identifier.no_dot {word : String} (identifier : Identifier word) : '.' ∉ word.toList :=
  fun member => absurd (identifier.wordChar '.' member) (by decide)

/-! ## Names -/

theorem dotted_eq_splitOn (text : List Char) : dotted text = text.splitOn '.' := by
  induction text with
  | nil => rfl
  | cons head rest ih =>
    obtain ⟨part, parts, split⟩ := List.exists_cons_of_ne_nil (List.splitOn_ne_nil '.' rest)
    rw [dotted, ih, List.splitOn_cons_eq_if_modifyHead, split]
    by_cases dot : head = '.' <;> simp [dot]

/-- The parts of a text give the text again, with dots between them. -/
theorem intercalate_dotted (table : String) : ".".intercalate ((dotted table.toList).map String.ofList) = table := by
  have separator : ".".toList = ['.'] := rfl
  have parts : (dotted table.toList).map (String.toList ∘ String.ofList) = dotted table.toList := by simp
  rw [← String.toList_inj, String.toList_intercalate, List.map_map, parts, separator, dotted_eq_splitOn]
  exact List.intercalate_splitOn '.'

/-- Words with dots between them are the parts of what they give. -/
theorem dotted_intercalate {words : List String} (some_word : words ≠ []) (no_dots : ∀ word ∈ words, '.' ∉ word.toList) :
    dotted (".".intercalate words).toList = words.map String.toList := by
  rw [dotted_eq_splitOn, String.toList_intercalate]
  exact List.splitOn_intercalate '.' (by simpa using no_dots) (mt List.map_eq_nil_iff.mp some_word)

theorem all_isIdentifier_iff : (dotted table.toList).all isIdentifier = true ↔ TableName table := by
  rw [List.all_eq_true]
  constructor
  · intro plain
    refine ⟨(dotted table.toList).map String.ofList, ?_, ?_, (intercalate_dotted table).symm⟩
    · rw [dotted_eq_splitOn]
      exact mt List.map_eq_nil_iff.mp (List.splitOn_ne_nil '.' _)
    · intro word member
      obtain ⟨part, found, rfl⟩ := List.mem_map.mp member
      rw [← isIdentifier_iff, String.toList_ofList]
      exact plain part found
  · rintro ⟨words, some_word, identifiers, rfl⟩ part found
    rw [dotted_intercalate some_word fun word member => (identifiers word member).no_dot] at found
    obtain ⟨word, member, rfl⟩ := List.mem_map.mp found
    exact isIdentifier_iff.mpr (identifiers word member)

instance : Decidable (TableName table) := decidable_of_iff _ all_isIdentifier_iff

/-- Names of tables are let through, and nothing else. -/
theorem checkTable_eq_ok_iff : checkTable table = .ok () ↔ TableName table := by
  rw [← all_isIdentifier_iff, checkTable]
  split <;> simp [*]

theorem checkTable_of_not (wrong : ¬ TableName table) :
    checkTable table = .error (.query s!"invalid table name '{table}'") := by
  rw [← all_isIdentifier_iff] at wrong
  exact if_neg wrong

/-- Dots stand between words only, and no word is empty or begins with a digit. -/
example : TableName "scheduling.shed_lock" ∧
    ∀ table ∈ ["", ".", ".locks", "locks.", "a..b", "1locks", "a.1", "locks ", "locks; x", "été"], ¬ TableName table := by
  decide +kernel

theorem mem_intercalate {separator : List Char} {parts : List (List Char)} (member : c ∈ separator.intercalate parts) :
    c ∈ separator ∨ ∃ part ∈ parts, c ∈ part := by
  induction parts with
  | nil => cases member
  | cons first rest ih =>
    cases rest with
    | nil =>
      rw [List.intercalate_singleton] at member
      exact .inr ⟨first, List.mem_cons_self, member⟩
    | cons second rest =>
      rw [List.intercalate_cons_cons, List.mem_append, List.mem_append] at member
      rcases member with (inside | between) | later
      · exact .inr ⟨first, List.mem_cons_self, inside⟩
      · exact .inl between
      · exact (ih later).imp_right fun ⟨part, found, inside⟩ => ⟨part, List.mem_cons_of_mem _ found, inside⟩

theorem TableName.tableChar (accepted : TableName table) : ∀ c ∈ table.toList, TableChar c := by
  obtain ⟨words, -, identifiers, rfl⟩ := accepted
  intro c member
  rw [String.toList_intercalate] at member
  rcases mem_intercalate member with dot | ⟨part, found, inside⟩
  · exact .inr (List.mem_singleton.mp dot)
  · obtain ⟨word, among, rfl⟩ := List.mem_map.mp found
    exact .inl ((identifiers word among).wordChar c inside)

end

end Sql

end TaskLease

import TaskLease.Proofs.Json.FlatObject
import TaskLease.Proofs.Time.TimestampText
import TaskLease.Store.RecordFile

/-!
# Records are read back

The text of a record is read back as that record, whatever its name and holder are and whenever its lease
begins and ends (`read_write`). It is one of many texts that the record is read from: `Spells` has objects with
the fields in any order, with further members between them, and arrays.

A file holds a record exactly if it holds a text that describes it (`readContent_eq_record_iff`), since no such
text is mistaken for blanks. So a record is read back from a file that it was written to (`readContent_write`).
-/

namespace TaskLease

namespace LockRecord

/-- The members of a record's object, given the texts of its instants. -/
def membersWith (r : LockRecord) (lockUntil lockedAt : String) : List (String × String) :=
  [("name", r.name), ("lock_until", lockUntil), ("locked_at", lockedAt), ("locked_by", r.lockedBy)]

/-- The members of a record's object, as it is written. -/
def members (r : LockRecord) : List (String × String) :=
  r.membersWith (Timestamp.write r.lockUntil) (Timestamp.write r.lockedAt)

theorem toJson_eq (r : LockRecord) : r.toJson = .object (r.members.map Json.textMember) := rfl

/-- Texts that describe a record: objects with its fields in any order and with unknown ones between them, and arrays
of its four values. Each instant may have any text that it is read from. -/
inductive Spells (r : LockRecord) : String → Prop
  | object {lockUntil lockedAt : String} {members unknown : List (String × String)}
      (lockUntil_reads : Timestamp.read lockUntil = some r.lockUntil)
      (lockedAt_reads : Timestamp.read lockedAt = some r.lockedAt)
      (order : members.Perm (r.membersWith lockUntil lockedAt ++ unknown))
      (no_field : ∀ member ∈ unknown, member.1 ∉ fields) :
      Spells r (Json.pretty (.object (members.map Json.textMember)))
  | array {lockUntil lockedAt : String}
      (lockUntil_reads : Timestamp.read lockUntil = some r.lockUntil)
      (lockedAt_reads : Timestamp.read lockedAt = some r.lockedAt) :
      Spells r (Json.render (.array ([r.name, lockUntil, lockedAt, r.lockedBy].map .string)))

/-- A field is found under its name, wherever it stands. -/
theorem only_askedMember (field : String) {text : String} {members known unknown : List (String × String)}
    (order : members.Perm (known ++ unknown)) (no_field : ∀ member ∈ unknown, member.1 ∉ fields)
    (asked : field ∈ fields) (once : known.filter (fun member => member.1 == field) = [(field, text)]) :
    only field (members.map (Json.askedMember fields)) = some (.string text) := by
  have elsewhere : unknown.filter (fun member => member.1 == field) = [] := by
    rw [List.filter_eq_nil_iff]
    intro member held same
    exact no_field member held (beq_iff_eq.mp same ▸ asked)
  have found : members.filter (fun member => member.1 == field) = [(field, text)] := by
    have filtered := order.filter fun member => member.1 == field
    rw [List.filter_append, once, elsewhere, List.append_nil] at filtered
    exact List.perm_singleton.mp filtered
  have seen : (members.map (Json.askedMember fields)).filter (fun member => member.1 == field) =
      [(field, .string text)] := by
    rw [List.filter_map]
    change (members.filter fun member => member.1 == field).map _ = _
    rw [found]
    simp [Json.askedMember, asked]
  rw [only, seen]

theorem ofFields_texts {r : LockRecord} {lockUntil lockedAt : String}
    (lockUntil_reads : Timestamp.read lockUntil = some r.lockUntil)
    (lockedAt_reads : Timestamp.read lockedAt = some r.lockedAt) :
    ofFields (.string r.name) (.string lockUntil) (.string lockedAt) (.string r.lockedBy) = some r := by
  simp [ofFields, textOf, instantOf, lockUntil_reads, lockedAt_reads]

/-- A record is read from every text that describes it. -/
theorem Spells.read {r : LockRecord} {text : String} (spells : r.Spells text) : LockRecord.read text = some r := by
  cases spells with
  | @object lockUntil lockedAt members unknown lockUntil_reads lockedAt_reads order no_field =>
    have some_member : members ≠ [] := by
      rintro rfl
      simp [membersWith] at order
    have name := only_askedMember "name" order no_field (by simp [fields]) rfl
    have lockUntil := only_askedMember "lock_until" order no_field (by simp [fields]) rfl
    have lockedAt := only_askedMember "locked_at" order no_field (by simp [fields]) rfl
    have lockedBy := only_askedMember "locked_by" order no_field (by simp [fields]) rfl
    rw [LockRecord.read, Json.readOnly_pretty fields some_member]
    simp only [Option.bind_eq_bind, Option.bind_some, ofJson, name, lockUntil, lockedAt, lockedBy]
    exact ofFields_texts lockUntil_reads lockedAt_reads
  | array lockUntil_reads lockedAt_reads =>
    rw [LockRecord.read, Json.readOnly_render fields (List.cons_ne_nil _ _)]
    exact ofFields_texts lockUntil_reads lockedAt_reads

/-- Every record is read back from its text. -/
theorem read_write (r : LockRecord) : LockRecord.read r.write = some r := by
  have written : r.Spells r.write := by
    have order : r.members.Perm (r.members ++ []) := .of_eq (List.append_nil r.members).symm
    rw [write, toJson_eq]
    exact .object (Timestamp.read_write r.lockUntil) (Timestamp.read_write r.lockedAt) order (by simp)
  exact written.read

/-- A value without parts is not a record. -/
theorem ofJson_of_readScalar {cs : List Char} {found : Json × List Char} (scalar : Json.readScalar cs = some found) :
    ofJson found.1 = none := by
  unfold Json.readScalar at scalar
  split at scalar <;> obtain ⟨_, _, rfl⟩ := Option.map_eq_some_iff.mp scalar <;> rfl

theorem solid_of_skipSpace {c : Char} {cs rest : List Char} (solid : Text.isBlank c = false)
    (next : Json.skipSpace cs = c :: rest) : ∃ c ∈ cs, Text.isBlank c = false := by
  have held : c ∈ Json.skipSpace cs := by
    rw [next]
    exact List.mem_cons_self
  exact ⟨c, (List.dropWhile_sublist Json.isSpace).subset held, solid⟩

/-- Since a record is read from nothing but an object or an array, there is a bracket in its text. -/
theorem solid_of_readValue {depth : Nat} {cs rest : List Char} {json : Json} {r : LockRecord}
    (value : Json.readValue depth cs = some (json, rest)) (record : ofJson json = some r) :
    ∃ c ∈ cs, Text.isBlank c = false := by
  rw [Json.readValue] at value
  split at value
  · rename_i array
    exact solid_of_skipSpace (by decide) array
  · rename_i object
    exact solid_of_skipSpace (by decide) object
  · have no_record := ofJson_of_readScalar value
    rw [record] at no_record
    cases no_record

/-- Blanks alone do not describe a record. -/
theorem solid_of_read {text : String} {r : LockRecord} (describes : LockRecord.read text = some r) :
    ∃ c ∈ text.toList, Text.isBlank c = false := by
  obtain ⟨json, found, record⟩ := Option.bind_eq_some_iff.mp describes
  unfold Json.readOnly at found
  split at found
  · rename_i object
    exact solid_of_skipSpace (by decide) object
  · obtain ⟨⟨first, rest⟩, value, finished⟩ := Option.bind_eq_some_iff.mp found
    obtain rfl : first = json := by
      dsimp only at finished
      split at finished
      · exact Option.some.inj finished
      · cases finished
    obtain ⟨c, held, solid⟩ := solid_of_readValue value record
    exact ⟨c, (List.dropWhile_sublist Json.isSpace).subset held, solid⟩

end LockRecord

namespace RecordFile

theorem fromUTF8?_toByteArray (text : String) : String.fromUTF8? text.toByteArray = some text := by
  rw [String.fromUTF8?, dif_pos text.isValidUTF8]
  rfl

theorem isBlankText_eq_false {text : String} (solid : ∃ c ∈ text.toList, Text.isBlank c = false) :
    Text.isBlankText text.toList = false := by
  simpa [Text.isBlankText] using solid

/-- A file holds a record if and only if it is the UTF-8 of a text that describes that record. -/
theorem readContent_eq_record_iff {content : ByteArray} {r : LockRecord} :
    readContent content = .ok (some r) ↔
      ∃ text : String, text.toByteArray = content ∧ LockRecord.read text = some r := by
  constructor
  · intro holds
    unfold readContent String.fromUTF8? at holds
    split at holds
    · cases holds
    · rename_i text decoded
      split at decoded
      · refine ⟨text, by rw [← Option.some.inj decoded]; rfl, ?_⟩
        split at holds
        · cases holds
        · split at holds
          · rename_i described
            rw [described, Option.some.inj (Except.ok.inj holds)]
          · cases holds
      · cases decoded
  · rintro ⟨text, rfl, describes⟩
    rw [readContent, fromUTF8?_toByteArray]
    simp only [isBlankText_eq_false (LockRecord.solid_of_read describes), describes, Bool.false_eq_true, if_false]

/-- A file that a record was written to holds that record. -/
theorem readContent_write (r : LockRecord) : readContent r.write.toByteArray = .ok (some r) :=
  readContent_eq_record_iff.mpr ⟨r.write, rfl, r.read_write⟩

/-- A file that has just been created holds no record. -/
theorem readContent_empty : readContent .empty = .ok none := by
  have decoded := fromUTF8?_toByteArray ""
  rw [readContent, ← String.toByteArray_empty, decoded]
  rfl

end RecordFile

end TaskLease

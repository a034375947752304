import Mathlib.Logic.Function.Iterate
import TaskLease.Proofs.Store.RecordText

/-!
# The normal form of record files

A record is read from many contents: its fields may stand in any order and among others, its instants may be given
by any clock. It is written as one. So a pass that reads a record file and writes back what it found, which is how
a transaction ends that changes nothing in the record, brings the file into a form that depends on the record alone
(`rewrite_eq_iff`), and passes after the first change nothing (`record_files_settle`).
-/

namespace TaskLease

namespace RecordFile

/-- The content of a file after a pass that reads its record and writes it back. -/
def rewrite (content : ByteArray) : ByteArray :=
  (transact (fun found => (⟨found, ()⟩ : Verdict Unit)) (some content)).2

theorem rewrite_of_record {content : ByteArray} {r : LockRecord} (holds : readContent content = .ok (some r)) :
    rewrite content = r.write.toByteArray := by
  rw [rewrite, transact, Option.getD_some, holds]

/-- A file without a record is left alone, whatever is in it. -/
theorem rewrite_of_no_record {content : ByteArray} (no_record : ∀ r, readContent content ≠ .ok (some r)) :
    rewrite content = content := by
  rw [rewrite, transact, Option.getD_some]
  cases found : readContent content with
  | error fault => rfl
  | ok record =>
    cases record with
    | none => rfl
    | some r => exact absurd found (no_record r)

/-- A pass keeps what is read from a file, be it a record, the lack of one or a fault. -/
theorem readContent_rewrite (content : ByteArray) : readContent (rewrite content) = readContent content := by
  by_cases record : ∃ r, readContent content = .ok (some r)
  · obtain ⟨r, holds⟩ := record
    rw [rewrite_of_record holds, readContent_write, holds]
  · rw [rewrite_of_no_record (not_exists.mp record)]

/-- A second pass changes nothing. -/
theorem rewrite_rewrite (content : ByteArray) : rewrite (rewrite content) = rewrite content := by
  by_cases record : ∃ r, readContent content = .ok (some r)
  · obtain ⟨r, holds⟩ := record
    rw [rewrite_of_record holds, rewrite_of_record (readContent_write r)]
  · have same := rewrite_of_no_record (not_exists.mp record)
    rw [same, same]

/-- Contents get the same form if and only if they hold the same record. -/
theorem rewrite_eq_iff {left right : ByteArray} {l r : LockRecord} (left_holds : readContent left = .ok (some l))
    (right_holds : readContent right = .ok (some r)) : rewrite left = rewrite right ↔ l = r := by
  constructor
  · intro same
    have read := congrArg readContent same
    rw [readContent_rewrite, readContent_rewrite, left_holds, right_holds] at read
    exact Option.some.inj (Except.ok.inj read)
  · rintro rfl
    rw [rewrite_of_record left_holds, rewrite_of_record right_holds]

/-- Passes over a content never lose a record, and leave nothing but its own text after the first of them. -/
structure SettlesInto (content : ByteArray) (r : LockRecord) : Prop where
  reads : ∀ passes, readContent (rewrite^[passes] content) = .ok (some r)
  rewrites : ∀ passes, rewrite^[passes + 1] content = r.write.toByteArray

theorem settlesInto_of_record {content : ByteArray} {r : LockRecord} (holds : readContent content = .ok (some r)) :
    SettlesInto content r := by
  refine ⟨fun passes => ?_, fun passes => ?_⟩
  · -- what is read is an invariant of the passes
    induction passes with
    | zero => exact holds
    | succ passes ih => rw [Function.iterate_succ_apply', readContent_rewrite, ih]
  · -- the first pass leads to a fixed point
    rw [Function.iterate_succ_apply, Function.iterate_fixed (rewrite_rewrite content), rewrite_of_record holds]

end RecordFile

open RecordFile

/-- Every record is read back from what was written for it, and every content that a record is read from settles
into that. Such contents are, among others, the texts that spell the record, with instants by any clock. -/
theorem record_files_settle :
    (∀ r : LockRecord, readContent r.write.toByteArray = .ok (some r)) ∧
    (∀ (content : ByteArray) (r : LockRecord), readContent content = .ok (some r) → SettlesInto content r) ∧
    (∀ (r : LockRecord) (text : String), r.Spells text → SettlesInto text.toByteArray r) ∧
    ∀ (t : Instant) (minutes : Int), minutes.natAbs < 1440 → -8334601228800 ≤ t.secs + minutes * 60 →
      t.secs + minutes * 60 ≤ 8210266876799 → Timestamp.read (Timestamp.writeAt minutes t) = some t := by
  refine ⟨readContent_write, fun content r holds => settlesInto_of_record holds, fun r text spells => ?_,
    fun t minutes day lower upper => Timestamp.read_writeAt t day lower upper⟩
  exact settlesInto_of_record (readContent_eq_record_iff.mpr ⟨text, rfl, spells.read⟩)

/-- Fields in an order of their own, one more between them, short numerals, more decimals than count, a leap second
and a clock that is ninety minutes ahead of UTC. -/
theorem record_files_settle_unusual :
    let text := "\x7b \"locked_by\" : \"a\\tb\", \"x\": [1e999, \x7b\"\": \"\\ud800\"\x7d],\n\"lock_until\":" ++
      "\"2024-1-5t9:03:60.12345678912 +01:30\", \"name\":\"\\ud83d\\ude00\", " ++
      "\"locked_at\": \"+2024-01-05 07:00:00UTC\" \x7d"
    let r : LockRecord := {
      name := "😀"
      lockUntil := ⟨1704440039, 1123456789, by decide, by decide, by decide, by decide⟩
      lockedAt := ⟨1704438000, 0, by decide, by decide, by decide, by decide⟩
      lockedBy := "a\tb" }
    readContent text.toByteArray = .ok (some r) ∧ SettlesInto text.toByteArray r ∧
      r.write = "\x7b\n  \"name\": \"😀\",\n  \"lock_until\": \"2024-01-05T07:33:60.123456789Z\",\n" ++
        "  \"locked_at\": \"2024-01-05T07:00:00Z\",\n  \"locked_by\": \"a\\tb\"\n\x7d" := by
  intro text r
  have describes : LockRecord.read text = some r := by decide +kernel
  have holds : readContent text.toByteArray = .ok (some r) := readContent_eq_record_iff.mpr ⟨text, rfl, describes⟩
  exact ⟨holds, record_files_settle.2.1 _ r holds, by decide +kernel⟩

end TaskLease

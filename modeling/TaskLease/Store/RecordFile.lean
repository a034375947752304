import TaskLease.Store.RecordText
import TaskLease.Store.Verdict

/-!
# Record files

Each lock has one file, which holds the text of its record. An empty file, or one of blanks, holds no
record. Reading the record, deciding and writing it back are one transaction, during which the file is
locked; a file that is not a record fails the transaction before anything is decided.

File names keep letters, digits and hyphens and spell every other byte in two hexadecimal digits, so no
two locks share a file and no lock name leads out of the directory.
-/

namespace TaskLease

namespace RecordFile

/-- Whether a byte of a lock name stands for itself in a file name: an ASCII letter or digit, or a
hyphen. -/
def isKept (byte : UInt8) : Bool :=
  let c := Char.ofNat byte.toNat
  byte < 128 && (c.isAlphanum || c == '-')

/-- How a byte of a lock name stands in a file name. -/
def encodeByte (byte : UInt8) : List Char :=
  if isKept byte then [Char.ofNat byte.toNat]
  else ['_', Nat.digitChar (byte.toNat / 16), Nat.digitChar (byte.toNat % 16)]

/-- The bytes of a text in UTF-8. -/
def bytes (text : String) : List UInt8 := text.toByteArray.data.toList

/-- How a lock name stands in a file name. -/
def encodeName (name : String) : String := String.ofList ((bytes name).flatMap encodeByte)

/-- The name of a lock's record file. -/
def fileName (name : String) : String := encodeName name ++ ".json"

/-- The record in the content of a file. -/
def readContent (content : ByteArray) : Except StoreFault (Option LockRecord) :=
  match String.fromUTF8? content with
  | none => .error (.fileIO "stream did not contain valid UTF-8")
  | some text =>
    if Text.isBlankText text.toList then .ok none
    else match LockRecord.read text with
      | some r => .ok (some r)
      | none => .error (.serialization "content is not a lock record")

/-- The record in a file that may be missing. -/
def read : (file : Option ByteArray) → Except StoreFault (Option LockRecord)
  | none => .ok none
  | some content => readContent content

/-- Reads the record, decides and writes it back. The file exists afterwards in any case, and its
content changes only if the verdict writes. -/
def transact {α : Type} (decide : Option LockRecord → Verdict α) (file : Option ByteArray) :
    Except StoreFault α × ByteArray :=
  let content := file.getD .empty
  match readContent content with
  | .error fault => (.error fault, content)
  | .ok found =>
    let verdict := decide found
    match verdict.write with
    | some next => (.ok verdict.answer, next.write.toByteArray)
    | none => (.ok verdict.answer, content)

end RecordFile

end TaskLease

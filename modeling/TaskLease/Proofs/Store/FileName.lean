import TaskLease.Proofs.Json.FlatObject
import TaskLease.Store.FileStore

/-!
# Names of record files

The bytes of a lock name are read back from the name of its record file (`decode_encode`), because a byte
that stands for itself is never the underscore that begins an escape, and every escape has the same
length. So no two locks share a file (`fileName_injective`).
-/

namespace TaskLease

namespace RecordFile

/-- The bytes of the lock name that the characters in front of a file name's suffix stand for. -/
def decode : List Char → Option (List UInt8)
  | [] => some []
  | '_' :: high :: low :: rest => do
    let high ← Json.hexValue? high
    let low ← Json.hexValue? low
    return UInt8.ofNat (high * 16 + low) :: (← decode rest)
  | c :: rest => do
    return UInt8.ofNat c.toNat :: (← decode rest)

theorem toNat_ofNat_of_byte {n : Nat} (byte : n < 256) : (Char.ofNat n).toNat = n := by
  have valid : n.isValidChar := .inl (by omega)
  rw [Char.ofNat, dif_pos valid]
  rfl

/-- A byte that is kept is no underscore. -/
theorem kept_ne_underscore {byte : UInt8} (kept : isKept byte = true) : Char.ofNat byte.toNat ≠ '_' := by
  intro underscore
  rw [isKept, underscore] at kept
  simp at kept

theorem decode_encodeByte (byte : UInt8) (rest : List Char) :
    decode (encodeByte byte ++ rest) = (decode rest).map (byte :: ·) := by
  have bound := byte.toNat_lt
  unfold encodeByte
  split
  · rename_i kept
    have other := kept_ne_underscore kept
    rw [List.singleton_append, decode]
    · rw [toNat_ofNat_of_byte bound, UInt8.ofNat_toNat]
      cases decode rest <;> rfl
    · intro high low tail underscore
      exact absurd underscore other
  · have high := Json.hexValue?_hexDigit (byte.toNat / 16) (by omega)
    have low := Json.hexValue?_hexDigit (byte.toNat % 16) (by omega)
    rw [Json.hexDigit] at high low
    simp only [List.cons_append, List.nil_append, decode, high, low, Option.bind_eq_bind, Option.bind_some]
    rw [Nat.mul_comm, Nat.div_add_mod, UInt8.ofNat_toNat]
    cases decode rest <;> rfl

/-- The bytes of a lock name are read back from its file name. -/
theorem decode_encode (name : String) : decode (encodeName name).toList = some (bytes name) := by
  rw [encodeName, String.toList_ofList]
  induction bytes name with
  | nil => rfl
  | cons byte rest ih =>
    rw [List.flatMap_cons, decode_encodeByte, ih]
    rfl

theorem bytes_injective {a b : String} (same : bytes a = bytes b) : a = b := by
  apply String.toByteArray_inj.mp
  exact ByteArray.ext (Array.toList_inj.mp same)

theorem encodeName_injective {a b : String} (same : encodeName a = encodeName b) : a = b := by
  have read := decode_encode a
  rw [same, decode_encode b] at read
  exact bytes_injective (Option.some.inj read).symm

/-- No two locks share a file. -/
theorem fileName_injective {a b : String} (same : fileName a = fileName b) : a = b := by
  have characters := congrArg String.toList same
  rw [fileName, fileName, String.toList_append, String.toList_append] at characters
  exact encodeName_injective (String.toList_inj.mp (List.append_cancel_right characters))

end RecordFile

namespace FileStore

/-- Nor do they share a path. -/
theorem recordPath_injective (s : FileStore) {a b : String} (same : s.recordPath a = s.recordPath b) : a = b := by
  have last := List.append_cancel_left same
  exact RecordFile.fileName_injective (List.singleton_inj.mp last)

end FileStore

end TaskLease

/-!
# Reading bytes as text

Bytes that are meant for people are read as UTF-8 even where they are not: every longest piece that begins
a character and does not complete one becomes a single replacement character, and so does every byte that
can not begin one.
-/

namespace TaskLease

namespace Text

/-- Stands for bytes that are no text. -/
def replacement : Char := '\uFFFD'

/-- The ranges of the bytes that may follow a first byte, and the bits that the first byte brings. There
are none for a byte that can not be first. -/
def following (lead : Nat) : Option (Nat × List (Nat × Nat)) :=
  let any := (0x80, 0xBF)
  if lead < 0x80 then some (lead, [])
  else if lead < 0xC2 then none
  else if lead < 0xE0 then some (lead % 0x20, [any])
  else if lead < 0xF0 then
    let second := if lead = 0xE0 then (0xA0, 0xBF) else if lead = 0xED then (0x80, 0x9F) else any
    some (lead % 0x10, [second, any])
  else if lead < 0xF5 then
    let second := if lead = 0xF0 then (0x90, 0xBF) else if lead = 0xF4 then (0x80, 0x8F) else any
    some (lead % 0x08, [second, any, any])
  else none

/-- Takes bytes within the given ranges, and adds their bits to those before them. -/
def takeFollowing : (ranges : List (Nat × Nat)) → (bits : Nat) → List UInt8 → Option Nat × List UInt8
  | [], bits, bytes => (some bits, bytes)
  | _ :: _, _, [] => (none, [])
  | (low, high) :: ranges, bits, byte :: bytes =>
    if low ≤ byte.toNat ∧ byte.toNat ≤ high then
      takeFollowing ranges (bits * 64 + byte.toNat % 64) bytes
    else (none, byte :: bytes)

theorem length_takeFollowing (ranges : List (Nat × Nat)) (bits : Nat) (bytes : List UInt8) :
    (takeFollowing ranges bits bytes).2.length ≤ bytes.length := by
  fun_induction takeFollowing ranges bits bytes with
  | case1 => simp
  | case2 => simp
  | case3 _ _ _ _ _ _ _ ih => simp only [List.length_cons]; omega
  | case4 => simp

/-- The character that bytes begin with, and the bytes after it. -/
def takeCharacter (lead : UInt8) (bytes : List UInt8) : Char × List UInt8 :=
  match following lead.toNat with
  | none => (replacement, bytes)
  | some (bits, ranges) =>
    let (code, rest) := takeFollowing ranges bits bytes
    ((code.map Char.ofNat).getD replacement, rest)

theorem length_takeCharacter (lead : UInt8) (bytes : List UInt8) :
    (takeCharacter lead bytes).2.length ≤ bytes.length := by
  unfold takeCharacter
  split
  · simp
  · exact length_takeFollowing _ _ _

/-- The characters of some bytes. -/
def readableCharacters : List UInt8 → List Char
  | [] => []
  | lead :: bytes =>
    let next := takeCharacter lead bytes
    next.1 :: readableCharacters next.2
termination_by bytes => bytes.length
decreasing_by
  have := length_takeCharacter lead bytes
  simp only [List.length_cons]
  omega

/-- Some bytes as a text for people. -/
def readable (bytes : List UInt8) : String := String.ofList (readableCharacters bytes)

end Text

end TaskLease

import TaskLease.Number.Numeral
import TaskLease.Task.Program.Scene

/-!
# Conditions

What can be asked about texts, numbers and files, alone or joined by marks. The answer is a status.
-/

namespace TaskLease

namespace Program

/-- Compares two integers. -/
def compare? : String → Option (Int → Int → Bool)
  | "-eq" => some fun a b => a = b
  | "-ne" => some fun a b => a ≠ b
  | "-lt" => some fun a b => a < b
  | "-le" => some fun a b => a ≤ b
  | "-gt" => some fun a b => b < a
  | "-ge" => some fun a b => b ≤ a
  | _ => none

/-- Whether a condition without others in it holds, if it is one. -/
def simplyHolds? (s : Scene) : List String → Option Bool
  | [a, "=", b] => some (a = b)
  | [a, "!=", b] => some (a ≠ b)
  | ["-e", name] | ["-r", name] | ["-w", name] => some (s.files.hasPathAt (s.pathText name))
  | ["-f", name] => some (s.files.contentAt (s.pathText name)).isSome
  | ["-s", name] =>
    let text := s.pathText name
    some ((s.files.contentAt text).any (0 < ·.size) || s.files.isDirectoryAt text)
  | ["-d", name] | ["-x", name] => some (s.files.isDirectoryAt (s.pathText name))
  | ["-h", _] | ["-L", _] | ["-t", _] | ["-p", _] | ["-S", _] | ["-b", _] | ["-c", _] => some false
  | ["-n", text] => some (text ≠ "")
  | ["-z", text] => some (text = "")
  | [text] => some (text ≠ "")
  | [] => some false
  | [a, word, b] => do
    return (← compare? word) (← Numeral.integer? a.toList) (← Numeral.integer? b.toList)
  | _ => none

/-- Whether a condition holds, if it is one. -/
def holds? (s : Scene) : (bound : Nat) → List String → Option Bool
  | 0, _ => none
  | bound + 1, words =>
    let behind (mark : String) : List String := (words.dropWhile (· ≠ mark)).drop 1
    let before (mark : String) : List String := words.takeWhile (· ≠ mark)
    if words.length ≤ 3 then
      match simplyHolds? s words, words with
      | some holds, _ => some holds
      | none, "!" :: rest => (holds? s bound rest).map not
      | none, [a, "-a", b] => some (a ≠ "" && b ≠ "")
      | none, [a, "-o", b] => some (a ≠ "" || b ≠ "")
      | _, _ => none
    else if words.contains "-o" then do
      return (← holds? s bound (before "-o")) || (← holds? s bound (behind "-o"))
    else if words.contains "-a" then do
      return (← holds? s bound (before "-a")) && (← holds? s bound (behind "-a"))
    else match words with
      | "!" :: rest => (holds? s bound rest).map not
      | _ => none

/-- Tests a condition. -/
def test (words : List String) : Running Nat := do
  match holds? (← get) (words.length + 1) words with
  | some holds => return statusOf holds
  | none => return 2

end Program

end TaskLease

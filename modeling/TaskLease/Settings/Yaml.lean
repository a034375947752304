import TaskLease.Settings.Yaml.Document
import TaskLease.Settings.Yaml.Lexer

/-!
# YAML documents

A text is cut into tokens, the tokens make a tree of nodes, and this is a table of settings. There may be
one document at most, and it has to be a mapping; a text without any says nothing. A text ends where a
character with the code zero stands.
-/

namespace TaskLease

namespace Yaml

/-- The settings in a text. -/
def read (text : String) : Option (List (String × SettingValue)) := do
  let tokens ← tokens (text.toList.takeWhile (· ≠ '\x00'))
  match ← Composer.root? tokens with
  | none => return []
  | some node =>
    match ← node.setting? with
    | .table entries => return entries
    | _ => none

end Yaml

end TaskLease

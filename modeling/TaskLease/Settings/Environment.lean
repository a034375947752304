import TaskLease.Settings.Value
import TaskLease.Table

/-!
# Settings in the environment

A variable whose name begins with the program's, in any case, and two underscores is a setting; two
underscores part the keys of its path, and capital letters are small ones. Its value is a truth value or a number, if it reads as one, and a
text otherwise.
-/

namespace TaskLease

namespace Environment

/-- Variables by name. -/
abbrev Bindings := Table String String

/-- What the names of settings begin with, in small letters. -/
def opening : List Char := "shedlock__".toList

/-- The name of the variable that names the profile. -/
def profileVariable : String := "SHEDLOCK_PROFILE"

/-- The profile if none is named. -/
def defaultProfile : String := "development"

/-- The profile that the variables name. -/
def profile (bindings : Bindings) : String := (bindings.get? profileVariable).getD defaultProfile

/-- A name with a dot for every two underscores. -/
def dotted : List Char → List Char
  | '_' :: '_' :: rest => '.' :: dotted rest
  | c :: rest => c :: dotted rest
  | [] => []

/-- The sign for the unit of temperature, whose small letter is that of the letter it looks like. No other
capital outside of ASCII has a small letter in it. -/
def kelvin : Char := '\u212A'

/-- The small letter of a character, if that is an ASCII letter, and the character otherwise. -/
def small (c : Char) : Char := if c = kelvin then 'k' else c.toLower

/-- The key of the setting that a variable is, if it is one. -/
def key? (name : String) : Option String :=
  let letters := name.toList.map small
  if opening.isPrefixOf letters then some (String.ofList (dotted (letters.drop opening.length)))
  else none

/-- What a variable says. -/
def valueOf (said : String) : SettingValue :=
  let word := String.ofList (said.toList.map Char.toLower)
  if word = "true" then .truth true
  else if word = "false" then .truth false
  else match Numeral.integer? said.toList with
    | some n =>
      if SettingValue.minInteger ≤ n ∧ n ≤ SettingValue.maxInteger then .integer n
      else .number (.ofInt n)
    | none =>
      match Numeral.double? said.toList with
      | some x => .number x
      | none => .text said

/-- The settings among some variables. -/
def settings (bindings : Bindings) : List (String × SettingValue) :=
  bindings.entries.filterMap fun e => (key? e.1).map fun key => (key, valueOf e.2)

end Environment

end TaskLease

import TaskLease.Json.Value
import TaskLease.Number.Numeral
import TaskLease.Number.Shortest
import TaskLease.Time.DurationWords

/-!
# Setting values

Settings come from files of several formats and from the environment, and all of these are read into one
kind of tree. What a leaf of it may be taken for depends on how strictly it is read: settings of a
program's own are read strictly, where a text is a text and a number a number, and those that a person
wrote leniently, where a number will do for a text and a text for a number.
-/

namespace TaskLease

/-- A tree of settings. -/
inductive SettingValue where
  | nothing
  | truth (value : Bool)
  | integer (value : Int)
  | number (value : Binary64)
  | text (value : String)
  | list (items : List SettingValue)
  | table (entries : List (String × SettingValue))
deriving Repr

/-- How closely a setting has to be what is asked for. -/
inductive Strictness where
  | strict
  | lenient
deriving DecidableEq, Repr

namespace SettingValue

instance : Inhabited SettingValue := ⟨.nothing⟩

/-- The greatest integer that sixty-four bits hold with a sign. -/
def maxInteger : Int := 0x7FFFFFFFFFFFFFFF

/-- The least integer that sixty-four bits hold with a sign. -/
def minInteger : Int := -0x8000000000000000

/-- The greatest natural number that sixty-four bits hold. -/
def maxNatural : Nat := 0xFFFFFFFFFFFFFFFF

/-- A JSON number. -/
def ofJsonNumber : JsonNumber → SettingValue
  | .integer n => .integer n
  | .double x => .number x

mutual

/-- A JSON value. -/
def ofJson : Json → SettingValue
  | .null => .nothing
  | .bool value => .truth value
  | .number value => ofJsonNumber value
  | .string value => .text value
  | .array items => .list (ofJsonItems items)
  | .object members => .table (ofJsonMembers members)

/-- The items of a JSON array. -/
def ofJsonItems : List Json → List SettingValue
  | [] => []
  | item :: rest => ofJson item :: ofJsonItems rest

/-- The members of a JSON object. -/
def ofJsonMembers : List (String × Json) → List (String × SettingValue)
  | [] => []
  | (name, value) :: rest => (name, ofJson value) :: ofJsonMembers rest

end

/-- What a setting says as a text. -/
def text? (strictness : Strictness) (value : SettingValue) : Option String :=
  match strictness, value with
  | _, .text said => some said
  | .strict, _ => none
  | .lenient, .truth b => some (if b then "true" else "false")
  | .lenient, .integer n => some (String.ofList (Text.signedNumeral n))
  | .lenient, .number x => some x.text
  | .lenient, _ => none

/-- The natural number of sixty-four bits that is nearest to a number, a half away from zero. What is no
number counts as zero. -/
def nearestNatural : Binary64 → Nat
  | .finite negative mantissa exponent =>
    min (Binary64.finite negative mantissa exponent).roundAway.toNat maxNatural
  | .infinite negative => if negative then 0 else maxNatural
  | .nan => 0

/-- The number that a text stands for where a number is asked for: one for a word of consent, zero for a
word of refusal. -/
def naturalOfText (text : String) : Option Nat :=
  let word := String.ofList (text.toList.map Char.toLower)
  if ["true", "on", "yes"].contains word then some 1
  else if ["false", "off", "no"].contains word then some 0
  else match text.toList with
    | '+' :: cs => Numeral.natural? cs
    | cs => Numeral.natural? cs

/-- What a setting says as a natural number below a limit. -/
def natural? (strictness : Strictness) (limit : Nat) (value : SettingValue) : Option Nat :=
  let within (n : Nat) : Option Nat := if n < limit then some n else none
  match strictness, value with
  | _, .integer n => if n < 0 then none else within n.toNat
  | .strict, _ => none
  | .lenient, .number x => within (nearestNatural x)
  | .lenient, .truth b => within (if b then 1 else 0)
  | .lenient, .text said => (naturalOfText said).bind within
  | .lenient, _ => none

/-- What a setting says as a duration, which is always given in words. -/
def duration? (strictness : Strictness) (value : SettingValue) : Option Duration :=
  match (value.text? strictness).map DurationWords.read with
  | some (.ok duration) => some duration
  | _ => none

/-- What a setting that may be left open says as a text. -/
def optionalText? (strictness : Strictness) (value : SettingValue) : Option (Option String) :=
  match value with
  | .nothing => some none
  | value => (value.text? strictness).map some

/-- The word that a setting chooses: a text, or a table with that word as its only key. A strict reader
wants nothing under the key. -/
def choice? (strictness : Strictness) (value : SettingValue) : Option String :=
  match strictness, value with
  | _, .text word => some word
  | _, .table [(word, .nothing)] => some word
  | .lenient, .table [(word, _)] => some word
  | _, _ => none

end SettingValue

/-- The settings of a section: those that a section's value gives, by name. -/
structure SectionSettings where
  given : List (String × SettingValue)

namespace SectionSettings

/-- The settings that a value gives to the fields of a section. A table gives them by name and a list in
order. A strict reader refuses a field that is given twice, and a list that is too long. -/
def ofValue? (strictness : Strictness) (fields : List String) :
    SettingValue → Option SectionSettings
  | .table entries =>
    let repeated := fields.any fun field => 1 < (entries.filter fun e => e.1 = field).length
    if strictness = .strict && repeated then none else some ⟨entries⟩
  | .list items =>
    if strictness = .strict && fields.length < items.length then none
    else some ⟨fields.zip items⟩
  | _ => none

/-- What a section says about a field; the default, if it has nothing to say. -/
def read {α : Type} (s : SectionSettings) (field : String) (read : SettingValue → Option α)
    (default : α) : Option α :=
  match s.given.lookup field with
  | none => some default
  | some value => read value

end SectionSettings

end TaskLease

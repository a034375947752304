import TaskLease.Json.Reader
import TaskLease.Number.Numeral
import TaskLease.Settings.Value
import TaskLease.Settings.Yaml.Token
import TaskLease.Table

/-!
# Nodes of a YAML document

A document is a tree of nodes. What a scalar is depends on its tag, if it has one, and on its spelling
otherwise; one in quotes is a text, whatever its tag says. Only some nodes are settings: real numbers have
to be spelled as numbers, and keys have to have a text.
-/

namespace TaskLease

namespace Yaml

/-- A node. -/
inductive Node where
  /-- A scalar that is not what its tag says, or a name for a node around it. -/
  | unknown
  | nothing
  | truth (value : Bool)
  | integer (value : Int)
  /-- A real number, as it is written. -/
  | real (said : String)
  | text (said : String)
  | list (items : List Node)
  | mapping (entries : List (Node × Node))
deriving BEq, Repr

instance : Inhabited Node := ⟨.nothing⟩

/-! ## Scalars -/

/-- What the handles of the language's own tags stand for. -/
def coreTags : String := "tag:yaml.org,2002:"

/-- An integer that is not too big to be kept. -/
def within (n : Int) : Option Int :=
  if SettingValue.minInteger ≤ n ∧ n ≤ SettingValue.maxInteger then some n else none

/-- The integer that a sign and digits of a base stand for. -/
def integerInBase? (base : Nat) (cs : List Char) : Option Int :=
  let (negative, digits) := Numeral.takeSign cs
  if digits.isEmpty then none
  else do
    let n ← digits.foldlM (fun n c =>
      (Json.hexValue? c).bind fun d => if d < base then some (n * base + d) else none) 0
    within (if negative then -(n : Int) else n)

/-- The integer that a plain scalar stands for. A plus sign may stand before another sign. -/
def integer? : List Char → Option Int
  | '0' :: 'x' :: digits => integerInBase? 16 digits
  | '0' :: 'o' :: digits => integerInBase? 8 digits
  | '+' :: cs => (integerInBase? 10 cs).or (integerInBase? 10 ('+' :: cs))
  | cs => integerInBase? 10 cs

/-- The words for infinity and for what is no number. -/
def realWords : List String :=
  [".inf", ".Inf", ".INF", "+.inf", "+.Inf", "+.INF", "-.inf", "-.Inf", "-.INF", ".nan", ".NaN", ".NAN"]

/-- Whether a plain scalar stands for a real number. -/
def isReal (said : String) : Bool :=
  realWords.contains said || (said.toList.any Char.isDigit && (Numeral.double? said.toList).isSome)

namespace Node

/-- What a plain scalar without a tag stands for. -/
def ofPlain (said : String) : Node :=
  match integer? said.toList with
  | some n => .integer n
  | none =>
    match said with
    | "" | "~" | "null" => .nothing
    | "true" | "True" | "TRUE" => .truth true
    | "false" | "False" | "FALSE" => .truth false
    | said => if isReal said then .real said else .text said

/-- What a plain scalar stands for that has one of the language's own tags. -/
def ofTagged (name said : String) : Node :=
  match name with
  | "bool" => if said = "true" then .truth true else if said = "false" then .truth false else .unknown
  | "int" => ((integerInBase? 10 said.toList).map .integer).getD .unknown
  | "float" => if isReal said then .real said else .unknown
  | "null" => if said = "~" || said = "null" then .nothing else .unknown
  | _ => .text said

/-- What a scalar stands for, given its tag with the meaning of its handle. -/
def ofScalar (plain : Bool) (tag : Option Tag) (said : String) : Node :=
  if !plain then .text said
  else match tag with
    | none => ofPlain said
    | some tag => if tag.handle = coreTags then ofTagged tag.suffix said else .text said

/-! ## Mappings -/

/-- The entries that the nodes of a mapping make, keys and values in turn. No key may come twice. A node
that is unknown can not be a key, and the next one takes its place. -/
def entriesOf? : (key : Option Node) → (entries : List (Node × Node)) → List Node →
    Option (List (Node × Node))
  | _, entries, [] => some entries
  | none, entries, .unknown :: rest => entriesOf? none entries rest
  | none, entries, node :: rest => entriesOf? (some node) entries rest
  | some key, entries, node :: rest =>
    if entries.any fun e => e.1 == key then none
    else entriesOf? none (entries ++ [(key, node)]) rest

/-! ## Settings -/

/-- The text of a key. -/
def keyText? : Node → Option String
  | .text said => some said
  | .integer n => some (String.ofList (Text.signedNumeral n))
  | .truth b => some (if b then "true" else "false")
  | .real said => some said
  | _ => none

mutual

/-- The setting that a node is. -/
def setting? : Node → Option SettingValue
  | .unknown | .nothing => some .nothing
  | .truth b => some (.truth b)
  | .integer n => some (.integer n)
  | .real said => (Numeral.double? said.toList).map .number
  | .text said => some (.text said)
  | .list items => (settings? items).map .list
  | .mapping entries => (entrySettings? entries).map fun es => .table (Table.ofList es).entries

/-- The settings that some nodes are. -/
def settings? : List Node → Option (List SettingValue)
  | [] => some []
  | node :: rest => do return (← node.setting?) :: (← settings? rest)

/-- The entries of a table that the entries of a mapping are. -/
def entrySettings? : List (Node × Node) → Option (List (String × SettingValue))
  | [] => some []
  | (key, node) :: rest => do return (← key.keyText?, ← node.setting?) :: (← entrySettings? rest)

end

end Node

end Yaml

end TaskLease

import TaskLease.Json.Reader
import TaskLease.Number.Numeral
import TaskLease.Task.Shell.Word

/-!
# Arithmetic in scripts

Expressions over integers with the usual operators; comparisons give one or zero. Operators of one rank
associate to the left. An expression may give variables new values, which count from there on.

An expression is evaluated while it is read, by recursion on a bound, for which four times its number of
tokens suffices.
-/

namespace TaskLease

namespace Shell

namespace Arithmetic

/-- A token of an expression. -/
inductive Token where
  | number (n : Int)
  | name (name : String)
  | mark (text : String)
deriving DecidableEq, Repr

/-- The marks of more than one character, the longest ones first. -/
def longMarks : List String :=
  ["<<=", ">>=", "==", "!=", "<=", ">=", "&&", "||", "<<", ">>", "+=", "-=", "*=", "/=", "%=", "&=", "^=", "|="]

/-- The mark at the start of a text. -/
def markAt (cs : List Char) : String :=
  (longMarks.find? fun mark => mark.toList.isPrefixOf cs).getD (String.ofList (cs.take 1))

/-- The rank of an operator between two values; one of a higher rank binds more closely. -/
def rank? : String → Option Nat
  | "||" => some 1
  | "&&" => some 2
  | "|" => some 3
  | "^" => some 4
  | "&" => some 5
  | "==" | "!=" => some 6
  | "<" | "<=" | ">" | ">=" => some 7
  | "<<" | ">>" => some 8
  | "+" | "-" => some 9
  | "*" | "/" | "%" => some 10
  | _ => none

/-- One for what holds, and zero for what does not. -/
def ofBool (b : Bool) : Int := if b then 1 else 0

/-- A natural number operation on integers of sixty-four bits. -/
def bitwise (f : Nat → Nat → Nat) (a b : Int) : Int :=
  let word (n : Int) : Nat := (n % 0x10000000000000000).toNat
  Int.bmod (f (word a) (word b)) 0x10000000000000000

/-- The value of an operator between two values. Nothing can be divided by zero. -/
def combine? (mark : String) (a b : Int) : Option Int :=
  match mark with
  | "||" => some (ofBool (a ≠ 0 || b ≠ 0))
  | "&&" => some (ofBool (a ≠ 0 && b ≠ 0))
  | "|" => some (bitwise Nat.lor a b)
  | "^" => some (bitwise Nat.xor a b)
  | "&" => some (bitwise Nat.land a b)
  | "==" => some (ofBool (a = b))
  | "!=" => some (ofBool (a ≠ b))
  | "<" => some (ofBool (a < b))
  | "<=" => some (ofBool (a ≤ b))
  | ">" => some (ofBool (b < a))
  | ">=" => some (ofBool (b ≤ a))
  | "<<" => some (a * Nat.pow 2 (b.toNat % 64))
  | ">>" => some (a / Nat.pow 2 (b.toNat % 64))
  | "+" => some (a + b)
  | "-" => some (a - b)
  | "*" => some (a * b)
  | "/" => if b = 0 then none else some (a.tdiv b)
  | "%" => if b = 0 then none else some (a.tmod b)
  | _ => none

/-- The number that digits stand for: of base eight behind a zero, and of base sixteen behind a zero and
an x. -/
def number? : List Char → Option Nat
  | '0' :: 'x' :: digits => digits.foldlM (fun n c => (Json.hexValue? c).map fun d => n * 16 + d) 0
  | '0' :: digits =>
    digits.foldlM (fun n c => if c.isDigit && c < '8' then some (n * 8 + (c.toNat - '0'.toNat)) else none) 0
  | digits => Numeral.natural? digits

/-- The tokens of an expression. -/
def tokens? : (bound : Nat) → List Char → Option (List Token)
  | 0, _ => none
  | _ + 1, [] => some []
  | bound + 1, c :: rest =>
    if c = ' ' ∨ c = '\t' ∨ c = '\n' then tokens? bound rest
    else if isNameCharacter c then do
      let word := c :: rest.takeWhile isNameCharacter
      let token : Token ←
        if c.isDigit then (number? word).map fun n => .number n else some (.name (String.ofList word))
      return token :: (← tokens? bound (rest.dropWhile isNameCharacter))
    else do
      let mark := markAt (c :: rest)
      return .mark mark :: (← tokens? bound (rest.drop (mark.length - 1)))

/-- New values of variables, the last one first. -/
abbrev Changes := List (String × Int)

/-- An evaluation that may give variables new values. -/
abbrev Evaluation := StateT Changes Option

/-- What cannot be evaluated. -/
def failure {α : Type} : Evaluation α := fun _ => none

/-- The value of a variable that has been given one, or else the one that it had before. -/
def lookUp (known : String → Option Int) (name : String) : Evaluation Int := fun changes =>
  ((changes.lookup name).or (known name)).map fun n => (n, changes)

/-- The operator in a mark that gives a variable a new value; none, if the value is not combined with the
old one. -/
def assigning? : String → Option (Option String)
  | "=" => some none
  | "+=" => some (some "+")
  | "-=" => some (some "-")
  | "*=" => some (some "*")
  | "/=" => some (some "/")
  | "%=" => some (some "%")
  | "<<=" => some (some "<<")
  | ">>=" => some (some ">>")
  | "&=" => some (some "&")
  | "^=" => some (some "^")
  | "|=" => some (some "|")
  | _ => none

mutual

/-- Evaluates an operand. -/
def operand (known : String → Option Int) : (bound : Nat) → List Token → Evaluation (Int × List Token)
  | 0, _ => failure
  | bound + 1, tokens => do
    match tokens with
    | .number n :: rest => return (n, rest)
    | .name name :: rest =>
      match rest with
      | .mark mark :: after =>
        match assigning? mark with
        | some operator =>
          let (n, rest) ← whole known bound after
          let n ← match operator with
            | some operator => (combine? operator (← lookUp known name) n).elim failure pure
            | none => pure n
          modify ((name, n) :: ·)
          return (n, rest)
        | none => return (← lookUp known name, rest)
      | rest => return (← lookUp known name, rest)
    | .mark "-" :: rest =>
      let (n, rest) ← operand known bound rest
      return (-n, rest)
    | .mark "+" :: rest => operand known bound rest
    | .mark "!" :: rest =>
      let (n, rest) ← operand known bound rest
      return (ofBool (n = 0), rest)
    | .mark "~" :: rest =>
      let (n, rest) ← operand known bound rest
      return (-n - 1, rest)
    | .mark "(" :: rest =>
      let (n, rest) ← whole known bound rest
      match rest with
      | .mark ")" :: rest => return (n, rest)
      | _ => failure
    | _ => failure

/-- Goes on with operators of a rank or a higher one. -/
def furtherOperands (known : String → Option Int) :
    (bound : Nat) → (least : Nat) → (left : Int) → List Token → Evaluation (Int × List Token)
  | 0, _, _, _ => failure
  | bound + 1, least, left, tokens => do
    match tokens with
    | .mark mark :: rest =>
      match rank? mark with
      | none => return (left, tokens)
      | some rank =>
        if rank < least then return (left, tokens)
        else
          let before ← get
          let (right, rest) ← operand known bound rest
          let (right, rest) ← furtherOperands known bound (rank + 1) right rest
          if mark = "&&" ∧ left = 0 ∨ mark = "||" ∧ left ≠ 0 then set before
          let value ← (combine? mark left right).elim failure pure
          furtherOperands known bound least value rest
    | tokens => return (left, tokens)

/-- Evaluates an expression, and of two that depend on a condition only one. -/
def whole (known : String → Option Int) : (bound : Nat) → List Token → Evaluation (Int × List Token)
  | 0, _ => failure
  | bound + 1, tokens => do
    let (n, rest) ← operand known bound tokens
    let (n, rest) ← furtherOperands known bound 1 n rest
    match rest with
    | .mark "?" :: rest =>
      let before ← get
      let (yes, rest) ← whole known bound rest
      let middle ← get
      match rest with
      | .mark ":" :: rest =>
        if n = 0 then set before
        let (no, rest) ← whole known bound rest
        if n ≠ 0 then set middle
        return (if n = 0 then no else yes, rest)
      | _ => failure
    | rest => return (n, rest)

end

/-- The value of an expression, and the new values of variables in the order in which they got them. -/
def value? (known : String → Option Int) (expression : List Char) : Option (Int × List (String × Int)) := do
  let tokens ← tokens? (expression.length + 1) expression
  let ((n, rest), changes) ← (whole known (4 * tokens.length + 4) tokens).run []
  if rest.isEmpty then some (n, changes.reverse) else none

end Arithmetic

end Shell

end TaskLease

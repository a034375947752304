import TaskLease.Json.Reader
import TaskLease.Settings.Value
import TaskLease.Time.Timestamp

/-!
# TOML scalars

The scalars of a TOML document: texts in four kinds of quotes, numbers in several bases, truth values, and
dates and times, which count as texts.
-/

namespace TaskLease

namespace Toml

/-- Whether a character may stand in a text or a comment: no control character but a tab. -/
def isPrintable (c : Char) : Bool := c = '\t' || (32 ≤ c.toNat && c.toNat ≠ 127)

/-! ## Texts -/

/-- The number that hexadecimal digits stand for. -/
def hexNumber? (digits : List Char) : Option Nat :=
  digits.foldlM (fun n c => (Json.hexValue? c).map fun d => n * 16 + d) 0

/-- The character of a number, which must not be a surrogate. -/
def character? (digits : List Char) : Option Char := do
  let n ← hexNumber? digits
  if h : n.isValidChar then some (Char.ofNatAux n h) else none

/-- The character of a simple escape. -/
def unescape? : Char → Option Char
  | 'b' => some '\x08'
  | 't' => some '\t'
  | 'n' => some '\n'
  | 'f' => some '\x0c'
  | 'r' => some '\r'
  | 'e' => some '\x1b'
  | '"' => some '"'
  | '\\' => some '\\'
  | _ => none

/-- Reads a text in double quotes from behind the first one. -/
def readBasic : (said : List Char) → List Char → Option (List Char × List Char)
  | said, '"' :: rest => some (said, rest)
  | said, '\\' :: 'x' :: a :: b :: rest => do readBasic (said ++ [← character? [a, b]]) rest
  | said, '\\' :: 'u' :: a :: b :: c :: d :: rest => do
    readBasic (said ++ [← character? [a, b, c, d]]) rest
  | said, '\\' :: 'U' :: a :: b :: c :: d :: e :: f :: g :: h :: rest => do
    readBasic (said ++ [← character? [a, b, c, d, e, f, g, h]]) rest
  | said, '\\' :: c :: rest => do readBasic (said ++ [← unescape? c]) rest
  | said, c :: rest => if isPrintable c then readBasic (said ++ [c]) rest else none
  | _, [] => none

/-- Reads a text in single quotes from behind the first one. Nothing in it is escaped. -/
def readLiteral : (said : List Char) → List Char → Option (List Char × List Char)
  | _, [] => none
  | said, c :: rest =>
    if c = '\u0027' then some (said, rest)
    else if isPrintable c then readLiteral (said ++ [c]) rest
    else none

/-- What happens to the blanks at a place in a text of several lines. -/
inductive Margin where
  /-- They are part of the text. -/
  | kept
  /-- They are dropped, and a line has to end before anything else comes. -/
  | ending
  /-- They are dropped up to the next character that is none. -/
  | dropped
deriving DecidableEq, Repr

/-- What happens to the blanks behind a line end. -/
def Margin.afterLine : Margin → Margin
  | .kept => .kept
  | .ending | .dropped => .dropped

/-- Whether a text of several lines ends here: the quotes that still belong to it, and the rest. -/
def closing? (quote : Char) (cs : List Char) : Option (List Char × List Char) :=
  let quotes := (cs.takeWhile (· = quote)).length
  if quotes < 3 then none
  else
    let kept := min (quotes - 3) 2
    some (List.replicate kept quote, cs.drop (kept + 3))

/-- Reads a text of several lines from behind its first quotes. -/
def readBlock (quote : Char) : (bound : Nat) → Margin → (said : List Char) → List Char →
    Option (List Char × List Char)
  | 0, _, _, _ => none
  | bound + 1, margin, said, cs =>
    match closing? quote cs with
    | some (kept, rest) => if margin = .ending then none else some (said ++ kept, rest)
    | none =>
      match cs with
      | [] => none
      | '\r' :: '\n' :: rest =>
        readBlock quote bound margin.afterLine (if margin = .kept then said ++ ['\r', '\n'] else said) rest
      | '\n' :: rest =>
        readBlock quote bound margin.afterLine (if margin = .kept then said ++ ['\n'] else said) rest
      | c :: rest =>
        if (c = ' ' ∨ c = '\t') ∧ margin ≠ .kept then readBlock quote bound margin said rest
        else if margin = .ending then none
        else if c = '\\' ∧ quote = '"' then
          match rest with
          | 'x' :: a :: b :: rest =>
            match character? [a, b] with
            | some c => readBlock quote bound .kept (said ++ [c]) rest
            | none => none
          | 'u' :: a :: b :: c :: d :: rest =>
            match character? [a, b, c, d] with
            | some c => readBlock quote bound .kept (said ++ [c]) rest
            | none => none
          | 'U' :: a :: b :: c :: d :: e :: f :: g :: h :: rest =>
            match character? [a, b, c, d, e, f, g, h] with
            | some c => readBlock quote bound .kept (said ++ [c]) rest
            | none => none
          | c :: after =>
            if c = ' ' ∨ c = '\t' ∨ c = '\r' ∨ c = '\n' then readBlock quote bound .ending said rest
            else match unescape? c with
              | some c => readBlock quote bound .kept (said ++ [c]) after
              | none => none
          | [] => none
        else if isPrintable c then readBlock quote bound .kept (said ++ [c]) rest
        else none

/-- Reads a text of several lines; a line end right behind its first quotes is no part of it. -/
def readLines (quote : Char) (cs : List Char) : Option (List Char × List Char) :=
  let cs := match cs with
    | '\r' :: '\n' :: rest | '\n' :: rest => rest
    | cs => cs
  readBlock quote (cs.length + 1) .kept [] cs

/-! ## Numbers -/

/-- The characters of a number without its underscores, each of which has to stand between two digits. -/
def joined? (isDigit : Char → Bool) : List Char → Option (List Char)
  | [] => none
  | [c] => if isDigit c then some [c] else none
  | c :: '_' :: rest => if isDigit c then (joined? isDigit rest).map (c :: ·) else none
  | c :: rest => if isDigit c then (joined? isDigit rest).map (c :: ·) else none

/-- Digits of a base between two and sixteen as a number. -/
def inBase? (base : Nat) (cs : List Char) : Option Nat := do
  let isDigit (c : Char) : Bool := match Json.hexValue? c with
    | some d => d < base
    | none => false
  let digits ← joined? isDigit cs
  return digits.foldl (fun n c => n * base + (Json.hexValue? c).getD 0) 0

/-- Digits without a leading zero. -/
def wholeDigits? (cs : List Char) : Option (List Char) := do
  let digits ← joined? Char.isDigit cs
  match digits with
  | '0' :: _ :: _ => none
  | digits => some digits

/-- An integer that sixty-four bits can hold. -/
def fitting? (n : Int) : Option SettingValue :=
  if SettingValue.minInteger ≤ n ∧ n ≤ SettingValue.maxInteger then some (.integer n) else none

/-- The integer that a word stands for. -/
def integer? : List Char → Option SettingValue
  | '0' :: 'x' :: cs => do fitting? (← inBase? 16 cs)
  | '0' :: 'o' :: cs => do fitting? (← inBase? 8 cs)
  | '0' :: 'b' :: cs => do fitting? (← inBase? 2 cs)
  | cs => do
    let (negative, rest) := Numeral.takeSign cs
    let n := Text.value (← wholeDigits? rest)
    fitting? (if negative then -(n : Int) else n)

/-- The number with a fraction or an exponent that a word stands for. One that is too big is refused, and
so are digits alone, which are an integer or nothing. -/
def double? (cs : List Char) : Option SettingValue := do
  let (negative, rest) := Numeral.takeSign cs
  match String.ofList rest with
  | "inf" => return .number (.infinite negative)
  | "nan" => return .number .nan
  | _ =>
    let isMark (c : Char) : Bool := c == 'e' || c == 'E'
    let plain := rest.takeWhile (!isMark ·)
    let exponent := rest.dropWhile (!isMark ·)
    if rest.all (fun c => c.isDigit || c = '_') then none
    let whole ← wholeDigits? (plain.takeWhile (· ≠ '.'))
    let decimals ← match plain.dropWhile (· ≠ '.') with
      | [] => some []
      | _ :: digits => joined? Char.isDigit digits
    let power ← match exponent with
      | [] => some 0
      | _ :: cs =>
        let (below, digits) := Numeral.takeSign cs
        (joined? Char.isDigit digits).map fun digits =>
          if below then -(Text.value digits : Int) else Text.value digits
    match Binary64.ofDecimal negative (Text.value (whole ++ decimals)) (power - decimals.length) with
    | .infinite _ => none
    | x => return .number x

/-! ## Dates and times -/

/-- Two digits up to a greatest number, as they stand. -/
def pair? (least greatest : Nat) : List Char → Option (List Char × List Char)
  | a :: b :: rest =>
    if a.isDigit && b.isDigit && least ≤ Text.value [a, b] && Text.value [a, b] ≤ greatest then
      some ([a, b], rest)
    else none
  | _ => none

/-- The text of a date, and what follows it. -/
def date? : List Char → Option (List Char × List Char)
  | a :: b :: c :: d :: '-' :: cs => do
    if !([a, b, c, d].all Char.isDigit) then none
    let (month, cs) ← pair? 1 12 cs
    match cs with
    | '-' :: cs =>
      let (day, cs) ← pair? 1 31 cs
      let _ ← Timestamp.dayOf (Text.value [a, b, c, d]) (Text.value month) (Text.value day)
      return ([a, b, c, d, '-'] ++ month ++ '-' :: day, cs)
    | _ => none
  | _ => none

/-- The text of the fraction of a second, if there is one, and what follows it. It has up to nine digits
and no zeros at its end, except for a lone one. -/
def fraction? : List Char → Option (List Char × List Char)
  | '.' :: cs =>
    let digits := cs.takeWhile Char.isDigit
    let shown := Duration.dropTrailingZeros (digits.take 9)
    if digits.isEmpty then none
    else some ('.' :: (if shown.isEmpty then ['0'] else shown), cs.dropWhile Char.isDigit)
  | cs => some ([], cs)

/-- The text of a time, and what follows it. The seconds may be left out. -/
def time? (cs : List Char) : Option (List Char × List Char) := do
  let (hour, cs) ← pair? 0 23 cs
  match cs with
  | ':' :: cs =>
    let (minute, cs) ← pair? 0 59 cs
    let plain := hour ++ ':' :: minute
    match cs with
    | ':' :: cs =>
      let (second, cs) ← pair? 0 60 cs
      let (fraction, cs) ← fraction? cs
      return (plain ++ ':' :: second ++ fraction, cs)
    | cs => return (plain, cs)
  | _ => none

/-- The text of an offset, or nothing. No offset is negative and zero. -/
def offset? : List Char → Option (List Char)
  | [] => some []
  | ['Z'] | ['z'] => some ['Z']
  | sign :: cs => do
    if sign ≠ '+' ∧ sign ≠ '-' then none
    let (hour, cs) ← pair? 0 23 cs
    match cs with
    | ':' :: cs =>
      let (minute, cs) ← pair? 0 59 cs
      let sign := if Text.value (hour ++ minute) = 0 then '+' else sign
      if cs.isEmpty then some (sign :: hour ++ ':' :: minute) else none
    | _ => none

/-- The text of a date, a time, or both. -/
def moment? (cs : List Char) : Option SettingValue :=
  match date? cs with
  | some (date, []) => some (.text (String.ofList date))
  | some (date, separator :: cs) => do
    if separator ≠ 'T' ∧ separator ≠ 't' ∧ separator ≠ ' ' then none
    let (time, cs) ← time? cs
    let offset ← offset? cs
    return .text (String.ofList (date ++ 'T' :: time ++ offset))
  | none =>
    match time? cs with
    | some (time, []) => some (.text (String.ofList time))
    | _ => none

/-! ## Words -/

/-- The characters of numbers, dates and truth values. -/
def isWordCharacter (c : Char) : Bool :=
  c.isAlphanum || c == '_' || c == '+' || c == '-' || c == '.' || c == ':'

/-- The word that a text begins with, and the rest. A time may follow its date behind one blank. -/
def takeWord (cs : List Char) : List Char × List Char :=
  let word := cs.takeWhile isWordCharacter
  let rest := cs.dropWhile isWordCharacter
  match date? word, rest with
  | some (_, []), ' ' :: a :: after =>
    if a.isDigit then
      (word ++ ' ' :: (a :: after).takeWhile isWordCharacter, (a :: after).dropWhile isWordCharacter)
    else (word, rest)
  | _, _ => (word, rest)

/-- The scalar that a word stands for. -/
def ofWord? (word : List Char) : Option SettingValue :=
  match String.ofList word with
  | "true" => some (.truth true)
  | "false" => some (.truth false)
  | _ => (integer? word).or ((double? word).or (moment? word))

/-- Reads a text in quotes of any kind. -/
def readText : List Char → Option (String × List Char)
  | '"' :: '"' :: '"' :: cs => (readLines '"' cs).map fun (said, rest) => (String.ofList said, rest)
  | '"' :: cs => (readBasic [] cs).map fun (said, rest) => (String.ofList said, rest)
  | '\u0027' :: '\u0027' :: '\u0027' :: cs =>
    (readLines '\u0027' cs).map fun (said, rest) => (String.ofList said, rest)
  | '\u0027' :: cs => (readLiteral [] cs).map fun (said, rest) => (String.ofList said, rest)
  | _ => none

/-- Reads a scalar. -/
def readScalar (cs : List Char) : Option (SettingValue × List Char) :=
  match cs with
  | '"' :: _ | '\u0027' :: _ => (readText cs).map fun (said, rest) => (.text said, rest)
  | _ =>
    let (word, rest) := takeWord cs
    (ofWord? word).map fun value => (value, rest)

end Toml

end TaskLease

import TaskLease.Json.Reader
import TaskLease.Number.Numeral

/-!
# Formats

A format is a text with places that arguments are filled into, as texts or as numbers. It is used again and
again as long as arguments are left.
-/

namespace TaskLease

namespace Format

/-! ## Escapes -/

/-- The character of a simple escape. -/
def unescape? : Char → Option Char
  | 'a' => some '\x07'
  | 'b' => some '\x08'
  | 'f' => some '\x0c'
  | 'n' => some '\n'
  | 'r' => some '\r'
  | 't' => some '\t'
  | 'v' => some '\x0b'
  | '\\' => some '\\'
  | _ => none

/-- Whether a character is an octal digit. -/
def isOctal (c : Char) : Bool := '0' ≤ c && c ≤ '7'

/-- The character with a number in octal digits. -/
def octal (digits : List Char) : Char := Char.ofNat (Nat.ofDigitChars 8 digits 0 % 256)

/-- The characters of a text with its escapes replaced. `zeroFirst` tells whether octal digits may follow a
zero of their own. Nothing comes behind the escape that ends a text, and it is told whether there is one. -/
def unescape (zeroFirst : Bool) : (bound : Nat) → List Char → List Char × Bool
  | 0, cs => (cs, false)
  | _ + 1, [] => ([], false)
  | bound + 1, '\\' :: c :: rest =>
    let behind (said : List Char) (rest : List Char) : List Char × Bool :=
      let (text, ended) := unescape zeroFirst bound rest
      (said ++ text, ended)
    let octals := if zeroFirst && c = '0' then rest else c :: rest
    let digits := octals.take 3 |>.takeWhile isOctal
    if c = 'c' then ([], true)
    else if isOctal c then behind [octal digits] (octals.drop digits.length)
    else match unescape? c with
      | some c => behind [c] rest
      | none => behind ['\\', c] rest
  | bound + 1, c :: rest =>
    let (text, ended) := unescape zeroFirst bound rest
    (c :: text, ended)

/-! ## Places -/

/-- How an argument is filled in. -/
structure Field where
  /-- Whether it stands at the left of its place. -/
  left : Bool := false
  /-- Whether zeros fill the place. -/
  zeros : Bool := false
  /-- What stands before a number that is not negative. -/
  sign : List Char := []
  width : Nat := 0
  /-- How many characters of a text, or digits of a number, there are at most or at least. -/
  precision : Option Nat := none

/-- Reads the signs of a place. -/
def readSigns : Field → List Char → Field × List Char
  | f, '-' :: cs => readSigns { f with left := true } cs
  | f, '0' :: cs => readSigns { f with zeros := true } cs
  | f, '+' :: cs => readSigns { f with sign := ['+'] } cs
  | f, ' ' :: cs => readSigns { f with sign := [' '] } cs
  | f, cs => (f, cs)

/-- Reads what stands before the letter of a place. -/
def readField (cs : List Char) : Field × List Char :=
  let (f, cs) := readSigns {} cs
  let digits := cs.takeWhile Char.isDigit
  let f := { f with width := Text.value digits }
  match cs.drop digits.length with
  | '.' :: cs =>
    let digits := cs.takeWhile Char.isDigit
    ({ f with precision := some (Text.value digits) }, cs.drop digits.length)
  | cs => (f, cs)

namespace Field

/-- A text in its place, whose width counts bytes. -/
def pad (f : Field) (text : List Char) : List Char :=
  let blanks := List.replicate (f.width - (String.ofList text).utf8ByteSize) ' '
  if f.left then text ++ blanks else blanks ++ text

/-- A text filled in. -/
def fillText (f : Field) (text : List Char) : List Char := f.pad (text.take (f.precision.getD text.length))

/-- Digits with a sign filled in. -/
def fillDigits (f : Field) (sign digits : List Char) : List Char :=
  let digits := digits.leftpad (f.precision.getD 1) '0'
  if f.zeros && !f.left && f.precision.isNone then
    sign ++ digits.leftpad (f.width - sign.length) '0'
  else f.pad (sign ++ digits)

/-- The digits of an integer in a base; those of a negative one are its complement's. -/
def digitsIn (base : Nat) (n : Int) : List Char :=
  Nat.toDigits base (if n < 0 then (n + 0x10000000000000000).toNat else n.toNat)

/-- A number filled in, as its letter tells. -/
def fillNumber (f : Field) (letter : Char) (n : Int) : List Char :=
  match letter with
  | 'u' => f.fillDigits [] (digitsIn 10 n)
  | 'o' => f.fillDigits [] (digitsIn 8 n)
  | 'x' => f.fillDigits [] (digitsIn 16 n)
  | 'X' => f.fillDigits [] ((digitsIn 16 n).map Char.toUpper)
  | _ => f.fillDigits (if n < 0 then ['-'] else f.sign) (Text.numeral n.natAbs)

end Field

/-- The digits of an integer at the start of a text, with their base, and what follows them. A zero, or a
zero and an x, tells the base. -/
def takeInteger (cs : List Char) : Nat × List Char × List Char :=
  let take (base : Nat) (cs : List Char) : Nat × List Char × List Char :=
    let isDigit (c : Char) : Bool := (Json.hexValue? c).any (· < base)
    (base, cs.takeWhile isDigit, cs.dropWhile isDigit)
  match cs with
  | '0' :: 'x' :: cs | '0' :: 'X' :: cs => take 16 cs
  | '0' :: _ => take 8 cs
  | cs => take 10 cs

/-- The number that an argument begins with, and whether that is all of it: the number of a character behind a
quote, or an integer. -/
def number : List Char → Int × Bool
  | [] => (0, true)
  | '"' :: c :: _ | '\u0027' :: c :: _ => (c.toNat, true)
  | cs =>
    let (negative, rest) := Numeral.takeSign cs
    let (base, digits, rest) := takeInteger rest
    let n := digits.foldl (fun n c => n * base + (Json.hexValue? c).getD 0) 0
    (if negative then -(n : Int) else n, rest.isEmpty && !digits.isEmpty)

/-- The decimal numeral of a double with so many decimals; a half goes to the even neighbour. -/
def fixedText (x : Binary64) (decimals : Nat) : List Char × List Char :=
  match x with
  | .nan => ([], "nan".toList)
  | .infinite negative => (if negative then ['-'] else [], "inf".toList)
  | .finite negative mantissa exponent =>
    let scaled := mantissa * Nat.pow 10 decimals
    let n :=
      if 0 ≤ exponent then scaled <<< exponent.natAbs
      else
        let whole := scaled >>> exponent.natAbs
        let rest := scaled - (whole <<< exponent.natAbs)
        let half := 1 <<< (exponent.natAbs - 1)
        if rest < half || rest = half && whole % 2 = 0 then whole else whole + 1
    let digits := Text.numeralOfWidth (decimals + 1) n
    let whole := digits.take (digits.length - decimals)
    let fraction := digits.drop (digits.length - decimals)
    (if negative then ['-'] else [], if decimals = 0 then whole else whole ++ '.' :: fraction)

/-! ## Filling -/

/-- What has been filled in so far. -/
structure Progress where
  said : List Char := []
  arguments : List String
  /-- Whether there was a place. -/
  filled : Bool := false
  /-- Whether something was no number where one should have been. -/
  failed : Bool := false
  /-- Whether there was a place for nothing that is known. -/
  broken : Bool := false
  /-- Whether an argument ended the text. -/
  ended : Bool := false

/-- Fills an argument into a place. -/
def Progress.place (p : Progress) (f : Field) (letter : Char) : Progress :=
  let argument := (p.arguments.headD "").toList
  let p := { p with arguments := p.arguments.drop 1, filled := true }
  match letter with
  | 's' => { p with said := p.said ++ f.fillText argument }
  | 'c' => { p with said := p.said ++ f.pad (argument.take 1) }
  | 'b' =>
    let (text, ended) := unescape true argument.length argument
    { p with said := p.said ++ f.fillText text, ended }
  | 'f' | 'F' =>
    let x := if argument.isEmpty then some (Binary64.finite false 0 0) else Numeral.double? argument
    let (sign, digits) := fixedText (x.getD (.finite false 0 0)) (f.precision.getD 6)
    let sign := if sign.isEmpty then f.sign else sign
    { p with
      said := p.said ++ { f with precision := none }.fillDigits sign digits
      failed := p.failed || x.isNone }
  | letter =>
    let (n, complete) := number argument
    { p with said := p.said ++ f.fillNumber letter n, failed := p.failed || !complete }

/-- Fills a format with arguments once. -/
def fillOnce : (bound : Nat) → Progress → List Char → Progress
  | 0, p, _ => p
  | _ + 1, p, [] => p
  | bound + 1, p, '%' :: '%' :: rest => fillOnce bound { p with said := p.said ++ ['%'] } rest
  | bound + 1, p, '%' :: rest =>
    match readField rest with
    | (f, letter :: after) =>
      if "sbcdiuoxXfF".toList.contains letter then
        let p := p.place f letter
        if p.ended then p else fillOnce bound p after
      else { p with broken := true, ended := true }
    | (_, []) => { p with broken := true, ended := true }
  | bound + 1, p, c :: rest => fillOnce bound { p with said := p.said ++ [c] } rest

/-- Fills a format with arguments as often as there are any. -/
def fillAll (format : List Char) : (bound : Nat) → Progress → Progress
  | 0, p => p
  | bound + 1, p =>
    let p := fillOnce (format.length + 1) { p with filled := false } format
    if p.filled && !p.ended && !p.arguments.isEmpty then fillAll format bound p else p

/-- What comes of filling a format. -/
inductive Outcome where
  | done
  /-- An argument was no number. -/
  | misfit
  /-- The format is none. -/
  | broken
deriving DecidableEq, Repr

/-- The text of a format with its arguments, and what came of filling it. -/
def fill (format : String) (arguments : List String) : String × Outcome :=
  let (format, _) := unescape false format.length format.toList
  let p := fillAll format (arguments.length + 1) { arguments }
  (String.ofList p.said, if p.broken then .broken else if p.failed then .misfit else .done)

end Format

end TaskLease

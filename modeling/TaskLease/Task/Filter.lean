import TaskLease.Number.Numeral
import TaskLease.Task.Pattern

/-!
# Filters

The built-in programs that turn a text into another one line by line or character by character: they choose
lines that have a place of some form, put texts in such places, sort lines, leave out those that repeat, cut
out parts of them, and exchange characters.
-/

namespace TaskLease

namespace Filter

/-! ## Forms of places in lines -/

/-- How often a character of a form comes. -/
inductive Count where
  | once
  | any
  | some
  | atMostOnce
deriving DecidableEq, Repr

/-- A form that places in lines may have. -/
structure Form where
  /-- Whether the place is at the beginning of the line. -/
  fromStart : Bool
  parts : List (Pattern.Item × Count)
  /-- Whether the place is at the end of the line. -/
  toEnd : Bool

/-- The count that a mark behind a character stands for. -/
def countOf? (extended : Bool) : Char → Option Count
  | '*' => .some .any
  | '+' => if extended then .some .some else none
  | '?' => if extended then .some .atMostOnce else none
  | _ => none

/-- Reads the parts of a form. Tells whether a mark for the end of the line follows them. -/
def readParts (extended : Bool) : (bound : Nat) → (parts : List (Pattern.Item × Count)) → List Char →
    List (Pattern.Item × Count) × Bool
  | 0, parts, _ => (parts, false)
  | _ + 1, parts, [] => (parts, false)
  | _ + 1, parts, ['$'] => (parts, true)
  | bound + 1, parts, c :: cs =>
    let (item, rest) : Pattern.Item × List Char :=
      match c, cs with
      | '.', cs => (.one, cs)
      | '\\', d :: cs => (.exact d, cs)
      | '[', cs =>
        match Pattern.takeAmong (cs.map (·, true)) with
        | some (item, rest) => (item, rest.map (·.1))
        | none => (.exact '[', cs)
      | c, cs => (.exact c, cs)
    match rest with
    | mark :: after =>
      match countOf? extended mark with
      | some count => readParts extended bound (parts ++ [(item, count)]) after
      | none => readParts extended bound (parts ++ [(item, .once)]) rest
    | [] => (parts ++ [(item, .once)], false)

/-- The form that a text describes, all characters of which may mean themselves. -/
def formOf (extended fixed : Bool) (text : List Char) : Form :=
  if fixed then ⟨false, text.map fun c => (.exact c, .once), false⟩
  else
    let (fromStart, cs) := match text with
      | '^' :: cs => (true, cs)
      | cs => (false, cs)
    let (parts, toEnd) := readParts extended (cs.length + 1) [] cs
    ⟨fromStart, parts, toEnd⟩

/-- The rest of a line behind the longest place at its beginning that has the form of some parts. -/
def behind? (toEnd : Bool) : (bound : Nat) → List (Pattern.Item × Count) → List Char → Option (List Char)
  | 0, _, _ => none
  | _ + 1, [], cs => if toEnd && !cs.isEmpty then none else some cs
  | bound + 1, (item, count) :: rest, cs =>
    let without : Option (List Char) :=
      match count with
      | .once | .some => none
      | .any | .atMostOnce => behind? toEnd bound rest cs
    match cs with
    | [] => without
    | c :: after =>
      if item.admits c then
        let more := match count with
          | .once | .atMostOnce => behind? toEnd bound rest after
          | .any | .some => behind? toEnd bound ((item, .any) :: rest) after
        more.or without
      else without

/-- What comes before the first place of a form in a line, the place itself, and what comes behind it. -/
def Form.find? (f : Form) : (before : List Char) → List Char → Option (List Char × List Char × List Char)
  | before, cs =>
    match behind? f.toEnd (cs.length + f.parts.length + 1) f.parts cs with
    | some rest => some (before, cs.take (cs.length - rest.length), rest)
    | none =>
      match cs with
      | [] => none
      | c :: cs => if f.fromStart then none else f.find? (before ++ [c]) cs

/-! ## Lines -/

/-- The lines of a text, without their ends. -/
def linesOf (text : List Char) : List (List Char) :=
  let lines := text.splitOn '\n'
  if lines.getLast? = some [] then lines.dropLast else lines

/-- The text of some lines. -/
def unlines (lines : List (List Char)) : List Char := lines.flatMap (· ++ ['\n'])

/-- Chooses the lines that have a place of a form. The status tells whether there are any. -/
def choose (flags : List Char) (form : List Char) (text : List Char) : List Char × Nat :=
  let small (cs : List Char) : List Char := if flags.contains 'i' then cs.map Char.toLower else cs
  let form := formOf (flags.contains 'E') (flags.contains 'F') (small form)
  let found := (linesOf text).zipIdx.filter fun (line, _) =>
    (form.find? [] (small line)).isSome != flags.contains 'v'
  let status := if found.isEmpty then 1 else 0
  if flags.contains 'q' then ([], status)
  else if flags.contains 'c' then (Text.numeral found.length ++ ['\n'], status)
  else
    (unlines (found.map fun (line, i) =>
      if flags.contains 'n' then Text.numeral (i + 1) ++ ':' :: line else line), status)

/-- Puts a text in the place of the first place of a form, or of all of them. A mark in the text stands for
what it takes the place of. -/
def replace (form : Form) (all : Bool) (text : List Char) : (bound : Nat) → List Char → List Char
  | 0, line => line
  | bound + 1, line =>
    match form.find? [] line with
    | none => line
    | some (before, found, behind) =>
      let said := before ++ text.flatMap fun c => if c = '&' then found else [c]
      match found, behind with
      | [], c :: behind => said ++ c :: if all then replace form all text bound behind else behind
      | _, behind => said ++ if all && !behind.isEmpty then replace form all text bound behind else behind

/-- Cuts fields or characters out of lines, as numbers tell. -/
def cut (characters : Bool) (separator : Char) (isChosen : Nat → Bool) (line : List Char) : List Char :=
  let chosen {α : Type} (parts : List α) : List α :=
    (parts.zipIdx.filter fun (_, i) => isChosen (i + 1)).map (·.1)
  if characters then chosen line
  else if line.contains separator then
    (chosen (line.splitOn separator)).intersperse [separator] |>.flatten
  else line

/-- Which numbers a list of numbers and ranges names. -/
def numbersIn (text : String) (n : Nat) : Bool :=
  (text.splitOn ",").any fun range =>
    match (range.splitOn "-").map fun bound => Numeral.natural? bound.toList with
    | [some a] => n = a
    | [a, b] => a.getD 1 ≤ n && b.all (n ≤ ·)
    | _ => false

/-- Leaves out lines that are equal to the one before, or counts them. -/
def withoutRepeats (counts : Bool) (lines : List (List Char)) : List (List Char) :=
  let groups := lines.foldr (fun line (groups : List (List Char × Nat)) => match groups with
    | (other, n) :: rest => if line = other then (line, n + 1) :: rest else (line, 1) :: groups
    | [] => [(line, 1)]) []
  groups.map fun (line, n) => if counts then (Text.numeral n).leftpad 7 ' ' ++ ' ' :: line else line

/-- Sorts lines: by their characters or by the numbers at their beginnings. -/
def sort (flags : List Char) (lines : List (List Char)) : List (List Char) :=
  let number (line : List Char) : Int :=
    let (negative, rest) := Numeral.takeSign (line.dropWhile (· = ' '))
    let n := Text.value (rest.takeWhile Char.isDigit)
    if negative then -(n : Int) else n
  let lessText (a b : List Char) : Bool := !decide (String.ofList b < String.ofList a)
  let less (a b : List Char) : Bool :=
    if flags.contains 'n' then number a < number b || number a = number b && lessText a b else lessText a b
  let sorted := lines.mergeSort less
  let sorted := if flags.contains 'r' then sorted.reverse else sorted
  if flags.contains 'u' then withoutRepeats false sorted else sorted

/-! ## Characters -/

/-- The characters that a text with ranges and classes names. -/
def charactersOf : List Char → List Char
  | '[' :: ':' :: cs =>
    let name := cs.takeWhile Char.isAlpha
    (Pattern.classRanges (String.ofList name)).flatMap fun (a, b) =>
      (List.range (b.toNat + 1 - a.toNat)).map fun i => Char.ofNat (a.toNat + i)
  | a :: '-' :: b :: rest =>
    (List.range (b.toNat + 1 - a.toNat)).map (fun i => Char.ofNat (a.toNat + i)) ++ charactersOf rest
  | '\\' :: 'n' :: rest => '\n' :: charactersOf rest
  | '\\' :: 't' :: rest => '\t' :: charactersOf rest
  | c :: rest => c :: charactersOf rest
  | [] => []

/-- Exchanges characters for others in the same place of a list. The last one stands for all behind it. -/
def exchange (old new : List Char) (text : List Char) : List Char :=
  text.map fun c =>
    match old.idxOf? c with
    | some i => (new[i]?).getD (new.getLastD c)
    | none => c

/-- Leaves out a character of some that follows itself. -/
def squeeze (among : List Char) (text : List Char) : List Char :=
  text.foldr (fun c rest => if rest.head? = some c && among.contains c then rest else c :: rest) []

end Filter

/-- A program that turns the texts of some files, or what it reads, into another text. -/
structure Filter where
  names : List String
  /-- The text, and the status. -/
  apply : List Char → List Char × Nat

namespace Filter

/-- A filter that always succeeds. -/
def ofText (names : List String) (f : List Char → List Char) : Filter := ⟨names, fun text => (f text, 0)⟩

/-- A filter of lines. -/
def ofLines (names : List String) (f : List (List Char) → List (List Char)) : Filter :=
  ofText names fun text => unlines (f (linesOf text))

/-- The filter that a command for replacing describes. -/
def replacing? (script : String) (names : List String) : Option Filter :=
  match script.toList with
  | 's' :: mark :: rest =>
    match rest.splitOn mark with
    | [form, text, flags] =>
      let form := formOf false false form
      some (ofLines names fun lines => lines.map fun line =>
        replace form (flags.contains 'g') text (line.length + 1) line)
    | _ => none
  | _ => none

/-- The value of an option: what follows its letter, or else the next word. -/
def optionValue? (letter : Char) : List String → Option String
  | [] => none
  | word :: rest =>
    match word.toList with
    | '-' :: c :: cs =>
      if c ≠ letter then optionValue? letter rest
      else if cs.isEmpty then rest.head?
      else some (String.ofList cs)
    | _ => optionValue? letter rest

/-- The filter of a name with its arguments. -/
def ofName? (name : String) (arguments : List String) : Option Filter :=
  let (flags, words) := arguments.partition fun word => word.startsWith "-" && word.length ≠ 1
  let letters := flags.flatMap fun flag => flag.toList.drop 1
  match name, words with
  | "grep", form :: names => some ⟨names, choose letters form.toList⟩
  | "sed", script :: names => replacing? script names
  | "sort", names => some (ofLines names (sort letters))
  | "uniq", names => some (ofLines names (withoutRepeats (letters.contains 'c')))
  | "rev", names => some (ofLines names fun lines => lines.map List.reverse)
  | "tac", names => some (ofLines names List.reverse)
  | "tr", [characters] =>
    let among := charactersOf characters.toList
    if letters.contains 'd' then some (ofText [] fun text => text.filter fun c => !among.contains c)
    else if letters.contains 's' then some (ofText [] (squeeze among))
    else none
  | "tr", [old, new] => some (ofText [] (exchange (charactersOf old.toList) (charactersOf new.toList)))
  | "cut", _ =>
    match optionValue? 'f' arguments, optionValue? 'c' arguments with
    | some numbers, _ =>
      let separator := (((optionValue? 'd' arguments).getD "").toList).headD '\t'
      some (ofLines [] fun lines => lines.map (cut false separator (numbersIn numbers)))
    | none, some numbers => some (ofLines [] fun lines => lines.map (cut true '\t' (numbersIn numbers)))
    | none, none => none
  | _, _ => none

end Filter

end TaskLease

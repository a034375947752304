import TaskLease.Task.Child
import TaskLease.Task.Format
import TaskLease.Task.Program.Condition
import TaskLease.Task.Program.Files

/-!
# Built-in programs

The programs that a child can be where no others can be started: a few plain ones, and a shell that runs
them one after the other. They read, print, take time, change files, and end with a status. A program that is
none of them can not be started.
-/

namespace TaskLease

namespace Program

/-- The name of a program without the directories of programs before it. -/
def baseName (name : String) : String :=
  if name.startsWith "/" then (name.splitOn "/").getLastD "" else name

/-! ## Time -/

/-- The duration that a number of seconds means. -/
def secondsOf (word : String) : Option Duration :=
  match Numeral.double? word.toList with
  | some (.finite false mantissa exponent) =>
    let (num, den) :=
      if exponent < 0 then (mantissa, 1 <<< exponent.natAbs) else (mantissa <<< exponent.natAbs, 1)
    some ⟨(num * Duration.nanosPerSecond + den / 2) / den⟩
  | _ => none

/-- The number of a unit of time, as a suffix gives it. -/
def unitOf : List Char → Nat × List Char
  | 's' :: cs => (1, cs)
  | 'm' :: cs => (60, cs)
  | 'h' :: cs => (3600, cs)
  | 'd' :: cs => (86400, cs)
  | cs => (1, cs)

/-- The duration that a number with a unit means. -/
def lengthOf (word : String) : Option Duration :=
  let (unit, cs) := unitOf word.toList.reverse
  (secondsOf (String.ofList cs.reverse)).map fun d => ⟨d.nanos * unit⟩

/-! ## Programs -/

/-- Prints the integers from one to another, with a text between them. -/
def sequence (words : List String) : Running Nat := do
  let (parting, words) := match words with
    | "-s" :: parting :: words => (parting, words)
    | words => ("\n", words)
  let count (first step last : Int) : Running Nat := do
    if step = 0 then return 1
    let size := if 0 < step then (last - first) / step + 1 else (first - last) / -step + 1
    let numerals := (List.range size.toNat).map fun (i : Nat) =>
      String.ofList (Text.signedNumeral (first + step * i))
    if !numerals.isEmpty then printLine (parting.intercalate numerals)
    return 0
  match words.mapM fun word => Numeral.integer? word.toList with
  | some [last] => count 1 1 last
  | some [first, last] => count first 1 last
  | some [first, step, last] => count first step last
  | _ => return 1

/-- Prints the values of variables. -/
def printBindings (names : List String) : Running Nat := do
  let bindings := (← get).bindings
  if names.isEmpty then
    bindings.entries.forM fun (name, value) => printLine s!"{name}={value}"
    return 0
  else
    let values := names.map bindings.get?
    (values.filterMap id).forM printLine
    return statusOf (values.all Option.isSome)

/-- Waits. -/
def sleep (words : List String) : Running Nat := do
  match words.mapM lengthOf with
  | some (first :: others) =>
    modify fun s => { s with elapsed := others.foldl (· + ·) (s.elapsed + first) }
    return 0
  | _ => return 1

/-- Prints words, with escapes if a flag says so. -/
def echo (words : List String) : Running Nat := do
  let isFlag (word : String) : Bool :=
    match word.toList with
    | '-' :: c :: cs => (c :: cs).all fun c => c = 'n' || c = 'e' || c = 'E'
    | _ => false
  let letters := (words.takeWhile isFlag).flatMap fun word => word.toList.drop 1
  let text := " ".intercalate (words.dropWhile isFlag)
  let escapes := (letters.reverse.find? fun c => c ≠ 'n') = some 'e'
  let (said, cut) :=
    if escapes then Format.unescape true text.length text.toList else (text.toList, false)
  print (String.ofList said ++ if cut || letters.contains 'n' then "" else "\n")
  return 0

/-- Fills a format, and gives the status for one that is none. -/
def printFormat (broken : Nat) (words : List String) : Running Nat := do
  match if words.head? = some "--" then words.drop 1 else words with
  | format :: rest =>
    let (text, outcome) := Format.fill format rest
    print text
    return match outcome with
      | .done => 0
      | .misfit => 1
      | .broken => broken
  | [] => return broken

/-- Runs a plain program; nothing, if there is none of the name. -/
def plain? (name : String) (arguments : List String) : Option (Running Nat) :=
  match baseName name with
  | "true" => some (return 0)
  | "false" => some (return 1)
  | "echo" => some (echo arguments)
  | "printf" => some (printFormat 1 arguments)
  | "sleep" => some (sleep arguments)
  | "cat" => some (concatenate arguments)
  | "head" => some (selectParts List.take arguments)
  | "tail" => some (selectParts (fun n parts => parts.drop (parts.length - n)) arguments)
  | "wc" => some (countParts arguments)
  | "rm" => some (remove arguments)
  | "mkdir" => some (makeDirectories arguments)
  | "touch" => some (touch arguments)
  | "cp" => some (copy false arguments)
  | "mv" => some (copy true arguments)
  | "ls" => some (list arguments)
  | "tee" => some (branch arguments)
  | "basename" => some (printLastStep arguments)
  | "dirname" => some (printParent arguments)
  | "seq" => some (sequence arguments)
  | "env" | "printenv" => some (printBindings arguments)
  | "test" => some (test arguments)
  | "[" => some (if arguments.getLast? = some "]" then test arguments.dropLast else return 2)
  | name => (Filter.ofName? name arguments).map fun filter => do
    let (texts, all) ← textsOf filter.names
    if !all then return 1
    let (text, status) := filter.apply texts.flatten
    print (String.ofList text)
    return status

end Program

end TaskLease

import TaskLease.Task.Shell.Interpreter

/-!
# Programs that are part of the shell

The programs that change the script which runs them, or end it: they set variables, options and traps, read
lines, send signals, and leave loops and functions.
-/

namespace TaskLease

namespace Shell

/-! ## Signals -/

/-- The names of signals with their numbers. -/
def signalNames : List (String × Nat) :=
  [("EXIT", 0), ("HUP", 1), ("INT", 2), ("QUIT", 3), ("ILL", 4), ("TRAP", 5), ("ABRT", 6), ("BUS", 7),
    ("FPE", 8), ("KILL", 9), ("USR1", 10), ("SEGV", 11), ("USR2", 12), ("PIPE", 13), ("ALRM", 14),
    ("TERM", 15), ("CHLD", 17), ("CONT", 18), ("STOP", 19), ("TSTP", 20), ("URG", 23), ("WINCH", 28)]

/-- The signal that asks a process to end. -/
def terminate : Nat := 15

/-- The signals that tell a waiting process to stop. -/
def stopSignals : List Nat := [2, terminate]

/-- The signals that end no process. The one with the number zero only asks whether there is one. -/
def harmlessSignals : List Nat := [0, 17, 18, 19, 20, 23, 28]

/-- The signal that a name or a number means. -/
def signal? (word : String) : Option Nat :=
  (Numeral.natural? word.toList).or (signalNames.lookup word)

/-- The signal and the process in the words behind a command to send one. -/
def signalTo? : List String → Option (Nat × String)
  | ["-s", word, target] => (signal? word).map (·, target)
  | [word, target] => if word.startsWith "-" then (signal? (word.drop 1).toString).map (·, target) else none
  | [target] => some (terminate, target)
  | _ => none

/-- Where a signal leads. -/
inductive Arrival where
  | result (result : Result)
  /-- A script is run. -/
  | action (script : String)

/-- Sends a signal to the shell itself, to its parent, or to what it has not waited for. -/
def send (words : List String) : Running Arrival := do
  match signalTo? words with
  | none => return .result (.status 2)
  | some (signal, target) =>
    if target = "job" then
      modify fun i => { i with lastEnd := i.scene.elapsed }
      return .result (.status 0)
    else if target = "parent" then
      if stopSignals.contains signal then return .result .interrupted
      if !harmlessSignals.contains signal then
        onScene (modify fun s => { s with parentKilledBy := s.parentKilledBy.or (some signal) })
      return .result (.status 0)
    else if target = "self" then
      if harmlessSignals.contains signal then return .result (.status 0)
      match (← get).traps.lookup signal with
      | some script => if signal = 9 then return .result (.killed signal) else return .action script
      | none => return .result (.killed signal)
    else return .result (.status 1)

/-- Says what is run when signals come. -/
def trap (words : List String) : Running Result := do
  let (action, names) := match words with
    | "--" :: action :: names | action :: names => (action, names)
    | [] => ("-", [])
  match names.mapM signal? with
  | none => return .status 1
  | some signals =>
    modify fun i =>
      let others := i.traps.filter fun (signal, _) => !signals.contains signal
      { i with traps := if action = "-" then others else signals.map (·, action) ++ others }
    return .status 0

/-! ## Options and arguments -/

/-- The status that a word gives. -/
def statusOf (word : Option String) (otherwise : Nat) : Nat :=
  match word.map fun w => Numeral.natural? w.toList with
  | some (some n) => n % 256
  | some none => 2
  | none => otherwise

/-- Switches an option by its letter. Tells whether there is one. -/
def Interpreter.switch (i : Interpreter) (on : Bool) : Char → Option Interpreter
  | 'e' => some { i with strict := on }
  | 'u' => some { i with wary := on }
  | letter => if "abCfhImnvxEV".toList.contains letter then some i else none

/-- The letter of an option with a name. -/
def optionLetter? (name : String) : Option Char :=
  [("errexit", 'e'), ("nounset", 'u'), ("xtrace", 'x'), ("verbose", 'v'), ("noglob", 'f'), ("noclobber", 'C'),
    ("allexport", 'a'), ("noexec", 'n'), ("monitor", 'm'), ("notify", 'b')].lookup name

/-- Switches options and sets arguments, as words say. -/
def Interpreter.set : List String → Interpreter → Option Interpreter
  | [], i => some i
  | "--" :: rest, i => some { i with arguments := i.arguments.take 1 ++ rest }
  | "-o" :: name :: rest, i => do (← i.switch true (← optionLetter? name)).set rest
  | "+o" :: name :: rest, i => do (← i.switch false (← optionLetter? name)).set rest
  | word :: rest, i =>
    match word.toList with
    | '-' :: letter :: letters => do
      Interpreter.set rest (← (letter :: letters).foldlM (fun i letter => i.switch true letter) i)
    | '+' :: letter :: letters => do
      Interpreter.set rest (← (letter :: letters).foldlM (fun i letter => i.switch false letter) i)
    | _ => some { i with arguments := i.arguments.take 1 ++ word :: rest }
termination_by words => words.length

/-! ## Variables -/

/-- The name in a word that may give it a value, and the value. -/
def binding (word : String) : String × Option String :=
  let cs := word.toList
  let name := cs.takeWhile (· ≠ '=')
  match cs.drop name.length with
  | _ :: value => (String.ofList name, some (String.ofList value))
  | [] => (word, none)

/-- Does something with every name in some words, and gives those values that have one. -/
def eachBinding (act : String → Running Unit) (words : List String) : Running Result := do
  words.forM fun word => do
    let (name, value) := binding word
    act name
    match value with
    | some value => assign name value
    | none => pure ()
  return .status 0

/-- Makes a variable one of the function at work. -/
def makeLocal (name : String) : Running Unit := modify fun i =>
  if (i.locals.lookup name).isSome then i
  else { i with locals := (name, i.scene.bindings.get? name) :: i.locals }

/-- Removes a backslash before a character, and the character's meaning with it. -/
def withoutBackslashes : List Char → List Char
  | '\\' :: c :: cs => c :: withoutBackslashes cs
  | c :: cs => c :: withoutBackslashes cs
  | [] => []

/-- The values for some names in a line. The last one gets all that is left. -/
def lineValues (separators : List Char) : List String → List Char → List (String × List Char)
  | [], _ => []
  | [name], cs =>
    let isBlank (c : Char) : Bool := separators.contains c && usualSeparators.contains c
    [(name, ((cs.dropWhile isBlank).reverse.dropWhile isBlank).reverse)]
  | name :: names, cs =>
    let isBlank (c : Char) : Bool := separators.contains c && usualSeparators.contains c
    let cs := cs.dropWhile isBlank
    let word := cs.takeWhile fun c => !separators.contains c
    let rest := (cs.drop word.length).dropWhile isBlank
    let rest := match rest with
      | c :: after => if separators.contains c then after else rest
      | [] => []
    (name, word) :: lineValues separators names rest

/-- Sets variables to the words of the next line. -/
def readLine (words : List String) : Running Result := do
  let names := words.filter fun name => !name.startsWith "-"
  let i ← get
  let line := i.scene.input.takeWhile (· ≠ '\n')
  let rest := i.scene.input.drop line.length
  onScene (modify fun s => { s with input := rest.drop 1 })
  let line := if words.contains "-r" then line else withoutBackslashes line
  (lineValues i.separators names line).forM fun (name, value) => assign name (String.ofList value)
  return .status (if rest.isEmpty then 1 else 0)

/-! ## Running -/

/-- Prints words with escapes. -/
def echo (words : List String) : Program.Running Nat := do
  let (ends, words) := match words with
    | "-n" :: words => (false, words)
    | words => (true, words)
  let text := " ".intercalate words
  let (text, cut) := Format.unescape true text.length text.toList
  Program.print (String.ofList text ++ if ends && !cut then "\n" else "")
  return 0

/-- Goes to a directory. -/
def goTo (words : List String) : Running Result := do
  let s := (← get).scene
  match words with
  | [name] =>
    let text := s.pathText name
    if s.files.isDirectoryAt text then
      onScene (modify fun s => { s with place := text })
      return .status 0
    else return .status 2
  | _ => return .status 2

/-- Leaves loops, or begins them anew. Without a loop nothing happens. -/
def leave (words : List String) (again : Bool) : Running Result := do
  let loops := (← get).loops
  if loops = 0 then return .status 0
  return .left (min (statusOf words.head? 1) loops - 1) again

/-- Runs a program of the shell, if there is one of the name. -/
def builtin? (name : String) (words : List String) : Option (Running Result) :=
  match name with
  | ":" => some (return .status 0)
  | "exit" => some do return .exited (statusOf words.head? (← get).last)
  | "return" => some do return .returned (statusOf words.head? (← get).last)
  | "break" => some (leave words false)
  | "continue" => some (leave words true)
  | "export" => some do
    let result ← eachBinding (fun _ => pure ()) (words.filter (· ≠ "-p"))
    words.forM fun word => reveal (binding word).1
    return result
  | "readonly" => some (eachBinding (fun _ => pure ()) words)
  | "local" => some (eachBinding makeLocal words)
  | "unset" => some do
    words.forM unassign
    return .status 0
  | "set" => some do
    match (← get).set words with
    | some i =>
      modify fun _ => i
      return .status 0
    | none => return .exited 2
  | "shift" => some do
    let i ← get
    let n := statusOf words.head? 1
    if i.arguments.length ≤ n then return .exited 2
    modify fun i => { i with arguments := i.arguments.take 1 ++ i.arguments.drop (n + 1) }
    return .status 0
  | "read" => some (readLine words)
  | "trap" => some (trap words)
  | "wait" => some do
    await
    let last := (← get).lastStatus
    return .status (if words.isEmpty then 0 else last)
  | "umask" | "hash" | "ulimit" | "jobs" | "alias" | "unalias" | "times" => some (return .status 0)
  | "cd" => some (goTo words)
  | "echo" => some do return .status (← onProgram (echo words))
  | "printf" => some do return .status (← onProgram (Program.printFormat 2 words))
  | _ => none

/-- The programs of the shell for which values that are given to variables stay. -/
def lastingPrograms : List String :=
  [":", ".", "eval", "exec", "exit", "export", "readonly", "return", "set", "shift", "times", "trap", "unset",
    "break", "continue"]

/-! ## Programs that run others -/

/-- What is done before and after a program that another one runs. -/
inductive Wrapping where
  /-- Variables are set; all others are removed if so told. -/
  | bindings (alone : Bool) (values : List (String × String))
  /-- The program may take so long. -/
  | limit (length : Duration)
  | nothing

/-- The wrapping and the program in the words of a program that runs another one. -/
def wrapped? : List String → Option (Wrapping × List String)
  | "env" :: "-i" :: rest =>
    let sets := rest.takeWhile fun word => word.contains '='
    some (.bindings true (sets.map fun word => (binding word).map id (·.getD "")), rest.drop sets.length)
  | "env" :: rest =>
    let sets := rest.takeWhile fun word => word.contains '='
    some (.bindings false (sets.map fun word => (binding word).map id (·.getD "")), rest.drop sets.length)
  | "timeout" :: word :: rest => (Program.lengthOf word).map fun length => (.limit length, rest)
  | "nohup" :: rest | "nice" :: rest | "setsid" :: rest => some (.nothing, rest)
  | _ => none

/-- The status of a program that took too long. -/
def tooLong : Nat := 124

/-- Runs a program with a wrapping. -/
def Wrapping.around (w : Wrapping) (run : Running Result) : Running Result := do
  match w with
  | .bindings alone values =>
    return (← isolated (do
      if alone then onScene (modify fun s => { s with bindings := ∅ })
      values.forM fun (name, value) => do
        assign name value
        reveal name
      run)).outside
  | .limit length =>
    let limit := (← get).scene.elapsed + length
    let result := (← isolated run).outside
    if length ≠ .zero && limit < (← get).scene.elapsed then
      onScene (modify fun s => { s with elapsed := limit })
      return .status tooLong
    return result
  | .nothing => return (← isolated run).outside

/-! ## Starting -/

/-- What a shell is started with. -/
structure Start where
  script : List Char
  arguments : List String
  strict : Bool := false
  wary : Bool := false

/-- Whether a program is a shell. -/
def isShell (name : String) : Bool := ["sh", "bash", "dash"].contains (Program.baseName name)

/-- What words start a shell with, given its name; nothing, if there is no script. -/
def Start.ofWords? (s : Program.Scene) (name : String) : (words : List String) → Start → Option Start
  | [], start => some { start with script := s.input, arguments := [name] }
  | word :: rest, start =>
    match word.toList with
    | '-' :: letter :: letters =>
      let letters := letter :: letters
      let start := { start with
        strict := start.strict || letters.contains 'e'
        wary := start.wary || letters.contains 'u' }
      if letters.contains 'c' then
        match rest with
        | script :: rest =>
          some { start with script := script.toList, arguments := if rest.isEmpty then [name] else rest }
        | [] => none
      else Start.ofWords? s name rest start
    | _ =>
      (Program.textOf s word).map fun script => { start with script, arguments := word :: rest }

end Shell

end TaskLease

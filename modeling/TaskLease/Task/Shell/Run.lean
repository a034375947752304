import TaskLease.Task.Shell.Arithmetic
import TaskLease.Task.Shell.Builtin

/-!
# Running scripts

A command runs on a scene with variables and arguments of its own. Words are first taken for what their
values say, which may give several words or none, and then the first one names a function or a program. What
a command prints goes on to the next one, to a file, or to where the script prints.

Running is by recursion on a bound for how deep commands lie within each other and how often loops are
repeated.
-/

namespace TaskLease

namespace Shell

/-! ## Redirections -/

/-- The name of the file that is always empty. -/
def nowhere : String := "/dev/null"

/-- Runs something whose streams go where they are sent, the first redirection first. Where one can not be
opened, nothing is run. -/
def redirected (run : Running Result) : List (Nat × Direction × String) → Running Result
  | [] => run
  | (stream, direction, target) :: rest => do
    let inner := redirected run rest
    match direction, stream with
    | .document, _ => reading target.toList inner
    | .source, _ =>
      if target = nowhere then reading [] inner
      else match Program.textOf (← get).scene target with
        | some input => reading input inner
        | none => return .status 2
    | .follow, 1 =>
      if target = "1" then inner
      else return (← captured inner).1
    | .follow, _ => inner
    | direction, 1 =>
      if target = nowhere then return (← captured inner).1
      else if ← onScene (Program.writeTo target (direction = .append) "") then
        let (result, printed) ← captured inner
        let _ ← onScene (Program.writeTo target true printed)
        return result
      else return .status 2
    | direction, _ =>
      if target = nowhere then inner
      else if ← onScene (Program.writeTo target (direction = .append) "") then inner
      else return .status 2

/-! ## Values -/

/-- A text without the line ends at its end. -/
def dropLineEnds (text : List Char) : List Char := (text.reverse.dropWhile (· = '\n')).reverse

/-- The arguments as pieces. -/
def argumentPieces (arguments : List String) (quoted : Bool) : List Piece :=
  (arguments.map fun argument => Piece.value quoted argument.toList).intersperse .boundary

/-- What a variable is taken for, given its value. -/
def valuePieces (i : Interpreter) (name : String) (value : Option String) (quoted : Bool) : List Piece :=
  if name = "@" || (name = "*" && !quoted) then argumentPieces (i.arguments.drop 1) quoted
  else match value with
    | some value => [.value quoted value.toList]
    | none => if quoted then [.fixed []] else []

/-- The value of a variable as an integer. -/
def Interpreter.integer? (i : Interpreter) (name : String) : Option Int :=
  match (i.value? name).getD "" with
  | "" => some 0
  | value =>
    let (negative, digits) := Numeral.takeSign value.toList
    (Arithmetic.number? digits).map fun n => if negative then -(n : Int) else n

/-! ## Commands -/

/-- Whether a command that fails may end a script by that. Others consist of such. -/
def Command.isStep : Command → Bool
  | .simple .. | .pipe .. | .subshell _ => true
  | .redirected inner _ => inner.isStep
  | _ => false

mutual

/-- What a word is taken for; nothing, if the script must end. -/
def pieces : (bound : Nat) → Word → Running (Option (List Piece))
  | 0, _ => return none
  | _ + 1, [] => return some []
  | bound + 1, part :: rest => do
    match ← partPieces bound part with
    | none => return none
    | some first => return (← pieces bound rest).map (first ++ ·)

/-- What a part of a word is taken for. -/
def partPieces : (bound : Nat) → Part → Running (Option (List Piece))
  | 0, _ => return none
  | bound + 1, part => do
    match part with
    | .text said quoted => return some [.text quoted said]
    | .output script quoted =>
      let (result, printed) ← captured (isolated (do finish bound (← runScript bound script)))
      modify fun i => { i with substituted := some result.number }
      return some [.value quoted (dropLineEnds printed.toList)]
    | .arithmetic expression quoted =>
      match ← pieces bound expression with
      | none => return none
      | some found =>
        match Arithmetic.value? (← get).integer? (flatten found) with
        | none => return none
        | some (n, changes) =>
          changes.forM fun (name, n) => assign name (String.ofList (Text.signedNumeral n))
          return some [.value quoted (Text.signedNumeral n)]
    | .parameter name choice orEmpty word quoted =>
      let i ← get
      let value := (i.value? name).filter fun value => !(orEmpty && value.isEmpty)
      let asIs := valuePieces i name value quoted
      match choice, value with
      | .otherwise, none | .instead, some _ =>
        return (← pieces bound word).map fun found => found.map Piece.asValue
      | .instead, none => return some (if quoted then [.fixed []] else [])
      | .required, none => return none
      | .assigned, none =>
        match ← pieces bound word with
        | none => return none
        | some found =>
          assign name (String.ofList (flatten found))
          return some [.value quoted (flatten found)]
      | choice, value =>
        if i.wary && value.isNone && name ≠ "@" && name ≠ "*" then return none
        match choice with
        | .length => return some [.value quoted (Text.numeral ((i.value? name).getD "").length)]
        | .without atEnd longest =>
          match ← pieces bound word with
          | none => return none
          | some found =>
            let pattern := patternOf found
            let cut := if atEnd then Pattern.withoutEnd else Pattern.withoutBeginning
            return some [.value quoted (cut pattern longest (value.getD "").toList)]
        | _ => return some asIs

/-- The words that words are taken for. -/
def wordFields : (bound : Nat) → List Word → Running (Option (List String))
  | 0, _ => return none
  | _ + 1, [] => return some []
  | bound + 1, word :: rest => do
    match ← pieces bound word with
    | none => return none
    | some found =>
      let i ← get
      let first := (divide i.separators found).flatMap (wordsOf i.scene)
      return (← wordFields bound rest).map (first ++ ·)

/-- The texts that words are taken for, each one for one. -/
def wordTexts : (bound : Nat) → List Word → Running (Option (List (List Pattern.Marked)))
  | 0, _ => return none
  | _ + 1, [] => return some []
  | bound + 1, word :: rest => do
    match ← pieces bound word with
    | none => return none
    | some found => return (← wordTexts bound rest).map (patternOf found :: ·)

/-- Sets variables. Tells whether the script can go on. -/
def assignAll : (bound : Nat) → List (String × Word) → Running Bool
  | 0, _ => return false
  | _ + 1, [] => return true
  | bound + 1, (name, word) :: rest => do
    match ← pieces bound word with
    | none => return false
    | some found =>
      assign name (String.ofList (flatten found))
      assignAll bound rest

/-- Runs a script at the end of another one, if there is one for that. -/
def finish : (bound : Nat) → Result → Running Result
  | 0, result => return result
  | bound + 1, result => do
    match (← get).traps.lookup 0, result with
    | _, .killed _ | _, .interrupted | none, _ => return result
    | some action, result =>
      modify fun i => { i with traps := i.traps.filter (·.1 ≠ 0), last := result.number }
      match ← runScript bound action.toList with
      | .exited n => return .exited n
      | _ => return result

/-- Runs a shell of its own. -/
def runStart : (bound : Nat) → Start → Running Result
  | 0, _ => return .status 2
  | bound + 1, start => fun i =>
    let outer : Interpreter :=
      { scene := { i.scene with bindings := i.visible }, arguments := start.arguments, strict := start.strict,
        wary := start.wary }
    let (result, inner) := (do finish bound (← runScript bound start.script)).run outer
    let result := match result with
      | .interrupted => .interrupted
      | result => .status result.number
    (result, { i with scene := { inner.scene with bindings := i.scene.bindings } })

/-- Runs the words of a command. -/
def runWords : (bound : Nat) → List String → Running Result
  | 0, _ => return .exited 2
  | _ + 1, [] => do return .status ((← get).substituted.getD 0)
  | bound + 1, name :: rest => do
    let i ← get
    match i.functions.lookup name with
    | some body =>
      match ← calling rest (run bound body) with
      | .returned n => return .status n
      | result => return result
    | none =>
      match name, rest with
      | "eval", rest => runScript bound (" ".intercalate rest).toList
      | ".", file :: _ =>
        match Program.textOf i.scene file with
        | some script =>
          match ← runScript bound script with
          | .returned n => return .status n
          | result => return result
        | none => return .exited 2
      | "command", "-v" :: name :: _ =>
        if (i.functions.lookup name).isSome || (builtin? name []).isSome then
          onScene (Program.printLine name)
          return .status 0
        else return .status 127
      | "command", rest =>
        modify fun i => { i with functions := i.functions.filter fun f => some f.1 ≠ rest.head? }
        let result ← runWords bound rest
        modify fun after => { after with functions := i.functions }
        return result
      | "xargs", word :: words =>
        let input := String.ofList (i.scene.input.map fun c => if usualSeparators.contains c then ' ' else c)
        return (← isolated (runWords bound (word :: words ++ (input.splitOn " ").filter (· ≠ "")))).outside
      | "exec", [] => return .status 0
      | "exec", rest =>
        match ← runWords bound rest with
        | .status n => return .exited n
        | result => return result
      | "kill", rest =>
        match ← send rest with
        | .result result => return result
        | .action script =>
          match ← runScript bound script.toList with
          | .status _ => return .status 0
          | result => return result
      | name, rest =>
        match builtin? name rest with
        | some run => run
        | none =>
          if isShell name then
            match Start.ofWords? i.scene name rest { script := [], arguments := [] } with
            | some start => runStart bound start
            | none => return .status 2
          else match wrapped? (name :: rest), Program.plain? name rest with
            | some (wrapping, word :: words), _ => wrapping.around (runWords bound (word :: words))
            | some (wrapping, []), some run => wrapping.around (do return .status (← onProgram run))
            | _, some run => return .status (← onProgram run)
            | _, none =>
              let found := i.scene.files.hasPathAt (i.scene.pathText name)
              return .status (if name.contains '/' && found then 126 else 127)

/-- Runs a command, and keeps its status. Where that may end the script, it does so. -/
def run : (bound : Nat) → Command → Running Result
  | 0, _ => return .exited 2
  | bound + 1, command => do
    let result ← perform bound command
    match result with
    | .status n =>
      modify fun i => { i with last := n }
      let i ← get
      if n ≠ 0 && i.strict && !i.tested && command.isStep then return .exited n
      return result
    | result => return result

/-- Does what a command says. -/
def perform : (bound : Nat) → Command → Running Result
  | 0, _ => return .exited 2
  | bound + 1, command => do
    match command with
    | .simple assignments words =>
      modify fun i => { i with substituted := none }
      match ← wordFields bound words with
      | none => return .exited 2
      | some words =>
        let before ← get
        if !(← assignAll bound assignments) then return .exited 2
        let stay := words.isEmpty || (words.head?).any lastingPrograms.contains
        if !stay then assignments.forM fun (name, _) => reveal name
        let result ← runWords bound words
        if !stay then assignments.forM fun (name, _) => modify fun i => { i with
          scene := { i.scene with bindings :=
            match before.scene.bindings.get? name with
            | some value => i.scene.bindings.insert name value
            | none => i.scene.bindings.erase name }
          hidden := if before.hidden.contains name then name :: i.hidden else i.hidden }
        return result
    | .redirected inner redirects =>
      match ← wordTexts bound (redirects.map (·.target)) with
      | none => return .exited 2
      | some texts =>
        let texts := texts.map fun text => String.ofList (Pattern.plain text)
        redirected (run bound inner)
          ((redirects.zip texts).map fun (r, text) => (r.stream, r.direction, text))
    | .andThen first condition next =>
      match ← if condition = .always then run bound first else testing (run bound first) with
      | .status n =>
        let due := match condition with
          | .always => true
          | .success => n = 0
          | .failure => n ≠ 0
        if due then run bound next else return .status n
      | result => return result
    | .negated inner =>
      match ← testing (run bound inner) with
      | .status n => return .status (if n = 0 then 1 else 0)
      | result => return result
    | .pipe first next =>
      piped (do finish bound (← run bound first)) (do finish bound (← run bound next))
    | .subshell inner => return (← isolated (do finish bound (← run bound inner))).outside
    | .background inner => unawaited (run bound inner)
    | .define name body =>
      modify fun i => { i with functions := (name, body) :: i.functions }
      return .status 0
    | .choose condition yes no =>
      match ← testing (run bound condition) with
      | .status n => run bound (if n = 0 then yes else no)
      | result => return result
    | .select word cases =>
      match ← pieces bound word with
      | none => return .exited 2
      | some found => runCases bound (flatten found) cases
    | .each name words body =>
      let found ← match words with
        | some words => wordFields bound words
        | none => pure (some ((← get).arguments.drop 1))
      match found with
      | none => return .exited 2
      | some values => looping (runEach bound name body values)
    | .whilst succeeds condition body => looping (runWhilst bound succeeds condition body 0)

/-- Runs the first of some commands for which a text has one of some forms. -/
def runCases : (bound : Nat) → (text : List Char) → List (List Word × Command) → Running Result
  | 0, _, _ => return .exited 2
  | _ + 1, _, [] => return .status 0
  | bound + 1, text, (forms, body) :: rest => do
    match ← wordTexts bound forms with
    | none => return .exited 2
    | some patterns =>
      if patterns.any fun pattern => Pattern.matchesText pattern text then run bound body
      else runCases bound text rest

/-- Runs a command for each of some values. -/
def runEach : (bound : Nat) → (name : String) → Command → List String → Running Result
  | 0, _, _, _ => return .exited 2
  | _ + 1, _, _, [] => return .status 0
  | bound + 1, name, body, value :: rest => do
    assign name value
    match ← run bound body with
    | .status n => if rest.isEmpty then return .status n else runEach bound name body rest
    | .left 0 true => runEach bound name body rest
    | .left 0 false => return .status 0
    | .left (further + 1) again => return .left further again
    | result => return result

/-- Runs a command as long as another succeeds, or fails. -/
def runWhilst : (bound : Nat) → (succeeds : Bool) → (condition body : Command) → (last : Nat) →
    Running Result
  | 0, _, _, _, _ => return .exited 2
  | bound + 1, succeeds, condition, body, last => do
    match ← testing (run bound condition) with
    | .status n =>
      if (n == 0) != succeeds then return .status last
      else
        match ← run bound body with
        | .status n => runWhilst bound succeeds condition body n
        | .left 0 true => runWhilst bound succeeds condition body 0
        | .left 0 false => return .status 0
        | .left (further + 1) again => return .left further again
        | result => return result
    | .left 0 true => runWhilst bound succeeds condition body 0
    | .left 0 false => return .status 0
    | .left (further + 1) again => return .left further again
    | result => return result

/-- Runs the text of a script. One that can not be read ends at once. -/
def runScript : (bound : Nat) → (script : List Char) → Running Result
  | 0, _ => return .exited 2
  | bound + 1, script =>
    match parse? script with
    | some command => run bound command
    | none => return .exited 2

end

/-- Runs something as a process of its own. What is not waited for comes to its end afterwards. -/
def asProcess (start : Start) (run : Running Result) : Program.Running ChildEnd := fun scene =>
  let first : Interpreter :=
    { scene, arguments := start.arguments, strict := start.strict, wary := start.wary }
  let (result, i) := (do finish maxSteps (← run)).run first
  (result.ending, { i.scene with output := i.scene.output ++ i.held })

/-- Runs a script with its name and arguments. -/
def interpret (start : Start) : Program.Running ChildEnd :=
  asProcess start (runScript maxSteps start.script)

end Shell

/-- Runs a program as a child. -/
def Program.start : List String → Program.Running ChildEnd
  | [] => return .noProgram
  | name :: arguments => do
    if Shell.isShell name then
      match Shell.Start.ofWords? (← get) name arguments { script := [], arguments := [] } with
      | some start => Shell.interpret start
      | none => return .exited 2
    else match Shell.wrapped? (name :: arguments), plain? name arguments with
      | some (_, _ :: _), _ =>
        Shell.asProcess { script := [], arguments } (Shell.runWords Shell.maxSteps (name :: arguments))
      | _, some run => return .exited (← run)
      | _, none => return .notStarted "No such file or directory (os error 2)"

end TaskLease

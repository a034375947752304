import TaskLease.Task.Program
import TaskLease.Task.Shell.Command
import TaskLease.Task.Shell.Field

/-!
# Scripts at work

What a script at work consists of, and how commands change it: its variables and arguments, the functions
and traps that it has set, and what it shares with the programs that it runs.
-/

namespace TaskLease

namespace Shell

/-- A script at work. -/
structure Interpreter where
  scene : Program.Scene
  /-- The name of the script, and its arguments. -/
  arguments : List String
  /-- The status of the last command. -/
  last : Nat := 0
  /-- The status of the last script whose output has become part of a word. -/
  substituted : Option Nat := none
  /-- The variables that programs do not see. -/
  hidden : List String := []
  /-- The variables of the function at work, with what they were before. -/
  locals : List (String × Option String) := []
  functions : List (String × Command) := []
  /-- What is run when a signal comes, or, for the number zero, at the end. -/
  traps : List (Nat × String) := []
  /-- Whether a command that fails ends the script. -/
  strict : Bool := false
  /-- Whether a variable without a value ends the script. -/
  wary : Bool := false
  /-- Whether the status of the command at work is a condition of another one. -/
  tested : Bool := false
  /-- How many loops are at work. -/
  loops : Nat := 0
  /-- What commands that are not waited for print. -/
  held : String := ""
  /-- When the last one of them ends. -/
  lastEnd : Duration := .zero
  /-- The status that the last one of them ends with. -/
  lastStatus : Nat := 0

/-- What a command leads to. -/
inductive Result where
  | status (n : Nat)
  /-- The process that ran it ends with a status. -/
  | exited (n : Nat)
  /-- A signal ends that process. -/
  | killed (signal : Nat)
  /-- The process that waits for the script is told to stop. -/
  | interrupted
  /-- The innermost loop ends or begins anew, but so many loops around it end before. -/
  | left (further : Nat) (again : Bool)
  /-- A function ends with a status. -/
  | returned (n : Nat)
deriving DecidableEq, Repr

/-- A script at work that comes to an answer. -/
abbrev Running := StateM Interpreter

/-- The most that commands are repeated or lie within each other. -/
def maxSteps : Nat := 20000

/-- The status that stands for an end by a signal. -/
def signalStatus (signal : Nat) : Nat := 128 + signal

/-- What a result means for the process around the one that ended with it. -/
def Result.outside : Result → Result
  | .exited n | .returned n => .status n
  | .left .. => .status 0
  | result => result

/-- The status of a process that ended with a result. -/
def Result.number : Result → Nat
  | .status n | .exited n | .returned n => n
  | .killed signal => signalStatus signal
  | .interrupted => signalStatus 9
  | .left .. => 0

/-- How a script ends that comes to a result. -/
def Result.ending : Result → ChildEnd
  | .killed _ => .killed
  | .interrupted => .interrupted
  | result => .exited result.number

/-! ## Variables -/

/-- Runs something on the scene. -/
def onScene {α : Type} (run : Program.Running α) : Running α := fun i =>
  let (answer, scene) := run i.scene
  (answer, { i with scene })

/-- The variables that programs see. -/
def Interpreter.visible (i : Interpreter) : Environment.Bindings :=
  i.hidden.foldl (fun bindings name => bindings.erase name) i.scene.bindings

/-- Runs a program on what it sees of the scene. -/
def onProgram {α : Type} (run : Program.Running α) : Running α := fun i =>
  let (answer, scene) := run { i.scene with bindings := i.visible }
  (answer, { i with scene := { scene with bindings := i.scene.bindings } })

/-- Sets a variable. One that has had no value is hidden. -/
def assign (name value : String) : Running Unit := modify fun i =>
  let bindings := i.scene.bindings
  { i with
    scene := { i.scene with bindings := bindings.insert name value }
    hidden := if bindings.contains name then i.hidden else name :: i.hidden }

/-- Shows a variable to programs. -/
def reveal (name : String) : Running Unit := modify fun i =>
  { i with hidden := i.hidden.filter (· ≠ name) }

/-- Removes a variable. -/
def unassign (name : String) : Running Unit := modify fun i =>
  { i with
    scene := { i.scene with bindings := i.scene.bindings.erase name }
    hidden := i.hidden.filter (· ≠ name) }

/-- The separators of fields. -/
def Interpreter.separators (i : Interpreter) : List Char :=
  match i.scene.bindings.get? "IFS" with
  | some value => value.toList
  | none => usualSeparators

/-- The value of a variable. The numbers of the shell, of its parent and of its last background command are
words for the three. -/
def Interpreter.value? (i : Interpreter) (name : String) : Option String :=
  match name with
  | "#" => some (toString (i.arguments.length - 1))
  | "?" => some (toString i.last)
  | "$" => some "self"
  | "PPID" => some "parent"
  | "!" => some "job"
  | "-" => some ""
  | "@" => if 1 < i.arguments.length then some (" ".intercalate (i.arguments.drop 1)) else none
  | "*" =>
    let parting := String.ofList (i.separators.take 1)
    if 1 < i.arguments.length then some (parting.intercalate (i.arguments.drop 1)) else none
  | name =>
    match Numeral.natural? name.toList with
    | some n => i.arguments[n]?
    | none => i.scene.bindings.get? name

/-! ## Surroundings of commands -/

/-- Runs something on copies of the variables and of all else that a script has to itself. -/
def isolated {α : Type} (run : Running α) : Running α := fun i =>
  let (answer, after) := run { i with traps := i.traps.filter (·.2 = "") }
  (answer, { i with scene := { after.scene with bindings := i.scene.bindings, place := i.scene.place } })

/-- Runs something, and keeps what it prints. -/
def captured {α : Type} (run : Running α) : Running (α × String) := fun i =>
  let before := i.scene.output
  let (answer, after) := run { i with scene := { i.scene with output := "" } }
  ((answer, after.scene.output), { after with scene := { after.scene with output := before } })

/-- Runs something that reads a text. -/
def reading {α : Type} (input : List Char) (run : Running α) : Running α := fun i =>
  let (answer, after) := run { i with scene := { i.scene with input } }
  (answer, { after with scene := { after.scene with input := i.scene.input } })

/-- Runs something whose status is a condition. -/
def testing {α : Type} (run : Running α) : Running α := fun i =>
  let (answer, after) := run { i with tested := true }
  (answer, { after with tested := i.tested })

/-- Runs something in a loop. -/
def looping {α : Type} (run : Running α) : Running α := fun i =>
  let (answer, after) := run { i with loops := i.loops + 1 }
  (answer, { after with loops := i.loops })

/-- Runs something in a function, with its arguments. The variables of the function end with it. -/
def calling {α : Type} (arguments : List String) (run : Running α) : Running α := fun i =>
  let (answer, after) := run { i with
    arguments := i.arguments.take 1 ++ arguments
    locals := []
    loops := 0 }
  let bindings := after.locals.foldl (fun bindings (name, before) => match before with
    | some value => bindings.insert name value
    | none => bindings.erase name) after.scene.bindings
  (answer, { after with
    scene := { after.scene with bindings }
    arguments := i.arguments
    locals := i.locals
    loops := i.loops })

/-- Runs something that is not waited for, given where its time begins. What it prints is held back. -/
def unawaited (run : Running Result) : Running Result := do
  let start := (← get).scene.elapsed
  let (result, printed) ← captured (isolated (reading [] run))
  modify fun i => { i with
    lastStatus := result.number
    scene := { i.scene with elapsed := start }
    held := i.held ++ printed
    lastEnd := if i.lastEnd < i.scene.elapsed then i.scene.elapsed else i.lastEnd }
  return .status 0

/-- Waits for the commands that have not been waited for. -/
def await : Running Unit := modify fun i => { i with
  scene := { i.scene with
    elapsed := if i.scene.elapsed < i.lastEnd then i.lastEnd else i.scene.elapsed
    output := i.scene.output ++ i.held }
  held := "" }

/-- Runs one command whose output another one reads. Both take their time together. -/
def piped (first next : Running Result) : Running Result := do
  let start := (← get).scene.elapsed
  let (result, printed) ← captured (isolated first)
  match result with
  | .killed _ | .interrupted => return result
  | _ =>
    let middle := (← get).scene.elapsed
    onScene (modify fun s => { s with elapsed := start })
    let result ← isolated (reading printed.toList next)
    onScene (modify fun s => { s with elapsed := if s.elapsed < middle then middle else s.elapsed })
    return result.outside

end Shell

end TaskLease

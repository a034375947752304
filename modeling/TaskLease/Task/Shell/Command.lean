import TaskLease.Task.Shell.Word

/-!
# The commands of a script

Simple commands are joined by operators, and grouped, chosen and repeated by reserved words, which count as
such only where a command may begin.

Commands are read by recursion on a bound, for which four times the number of tokens suffices.
-/

namespace TaskLease

namespace Shell

/-- What a command depends on. -/
inductive Condition where
  | always
  /-- The command before succeeded. -/
  | success
  /-- The command before failed. -/
  | failure
deriving DecidableEq, Repr

/-- Where a stream of a command goes. -/
structure Redirect where
  stream : Nat
  direction : Direction
  target : Word

/-- A command. -/
inductive Command where
  /-- Values for variables, and the words of a program with its arguments. -/
  | simple (assignments : List (String × Word)) (words : List Word)
  | redirected (inner : Command) (redirects : List Redirect)
  /-- A command, and one that comes after it under a condition. -/
  | andThen (first : Command) (condition : Condition) (next : Command)
  /-- A command that fails if another succeeds. -/
  | negated (inner : Command)
  /-- A command that reads what another prints. -/
  | pipe (first next : Command)
  /-- A command on its own copy of the variables. -/
  | subshell (inner : Command)
  | choose (condition yes no : Command)
  /-- A command for each of some words; of the script's arguments, if there are none. -/
  | each (name : String) (words : Option (List Word)) (body : Command)
  /-- A command as long as another succeeds, or fails. -/
  | whilst (succeeds : Bool) (condition body : Command)
  /-- The first command for which a word has one of some forms. -/
  | select (word : Word) (cases : List (List Word × Command))
  /-- A command that is not waited for. -/
  | background (inner : Command)
  /-- A command that is kept under a name. -/
  | define (name : String) (body : Command)
deriving Inhabited

/-- The command that does nothing. -/
def Command.nothing : Command := .simple [] []

/-! ## Reading -/

/-- The words that end a list of commands. -/
def closers : List String := ["then", "elif", "else", "fi", "do", "done", "esac", "\x7d"]

/-- The word at the start of some tokens, if it has no quotes and no values. -/
def head? : List Token → Option String
  | .word word :: _ => (literal? word).map String.ofList
  | _ => none

/-- Takes a reserved word. -/
def expect (word : String) (tokens : List Token) : Option (List Token) :=
  if head? tokens = some word then some (tokens.drop 1) else none

/-- Skips the ends of lines. -/
def skipLines : List Token → List Token
  | .operator .line :: rest => skipLines rest
  | tokens => tokens

/-- The name and the value in a word that assigns one. -/
def assignment? : Word → Option (String × Word)
  | .text said false :: rest =>
    let name := said.takeWhile (· ≠ '=')
    match said.drop name.length with
    | _ :: value =>
      if isName name then
        some (String.ofList name, if value.isEmpty then rest else .text value false :: rest)
      else none
    | [] => none
  | _ => none

/-- Reads the redirections behind a command. -/
def readRedirects (redirects : List Redirect) : List Token → List Redirect × List Token
  | .operator (.redirect stream direction) :: .word target :: rest =>
    readRedirects (redirects ++ [⟨stream, direction, target⟩]) rest
  | tokens => (redirects, tokens)

/-- A command with redirections, if there are any. -/
def Command.sending (redirects : List Redirect) (c : Command) : Command :=
  if redirects.isEmpty then c else .redirected c redirects

/-- Reads a simple command. -/
def readSimple (assignments : List (String × Word)) (words : List Word) (redirects : List Redirect) :
    List Token → Option (Command × List Token)
  | .word word :: rest =>
    match if words.isEmpty then assignment? word else none with
    | some assignment => readSimple (assignments ++ [assignment]) words redirects rest
    | none => readSimple assignments (words ++ [word]) redirects rest
  | .operator (.redirect stream direction) :: .word target :: rest =>
    readSimple assignments words (redirects ++ [⟨stream, direction, target⟩]) rest
  | tokens =>
    if assignments.isEmpty && words.isEmpty && redirects.isEmpty then none
    else some ((Command.simple assignments words).sending redirects, tokens)

/-- The words of a loop, up to the end of the command. -/
def readWords : List Word → List Token → Option (List Word × List Token)
  | words, .word word :: rest => readWords (words ++ [word]) rest
  | words, .operator .stop :: rest | words, .operator .line :: rest => some (words, rest)
  | _, _ => none

/-- The name of a function at the start of its definition, and what follows it. -/
def functionName? : List Token → Option (String × List Token)
  | .word word :: .operator .opening :: .operator .closing :: rest => do
    let name ← literal? word
    if isName name then some (String.ofList name, skipLines rest) else none
  | _ => none

/-- Reads the forms before the command of a case. -/
def readForms : List Word → List Token → Option (List Word × List Token)
  | forms, .word word :: .operator .pipe :: rest => readForms (forms ++ [word]) rest
  | forms, .word word :: .operator .closing :: rest => some (forms ++ [word], rest)
  | _, _ => none

mutual

/-- Reads commands up to a word or parenthesis that closes them. -/
def readList : (bound : Nat) → (before : Option Command) → List Token → Option (Command × List Token)
  | 0, _, _ => none
  | bound + 1, before, tokens =>
    let tokens := skipLines tokens
    let closed := match tokens with
      | [] | .operator .closing :: _ | .operator .caseEnd :: _ => true
      | tokens => (head? tokens).any closers.contains
    if closed then some (before.getD .nothing, tokens)
    else do
      let (next, rest) ← readChain bound none .always tokens
      let join (next : Command) : Command := (before.map (·.andThen .always next)).getD next
      match rest with
      | .operator .stop :: rest | .operator .line :: rest => readList bound (some (join next)) rest
      | .operator .background :: rest => readList bound (some (join (.background next))) rest
      | [] | .operator .closing :: _ | .operator .caseEnd :: _ => some (join next, rest)
      | _ => none

/-- Reads commands that depend on each other. -/
def readChain : (bound : Nat) → (before : Option Command) → Condition → List Token →
    Option (Command × List Token)
  | 0, _, _, _ => none
  | bound + 1, before, condition, tokens => do
    let (next, rest) ← readPipe bound none tokens
    let chain := match before with
      | some before => before.andThen condition next
      | none => next
    match rest with
    | .operator .both :: rest => readChain bound (some chain) .success (skipLines rest)
    | .operator .either :: rest => readChain bound (some chain) .failure (skipLines rest)
    | rest => some (chain, rest)

/-- Reads commands each of which reads what the one before prints. -/
def readPipe : (bound : Nat) → (before : Option Command) → List Token → Option (Command × List Token)
  | 0, _, _ => none
  | bound + 1, before, tokens => do
    match before, expect "!" tokens with
    | none, some rest =>
      let (inner, rest) ← readPipe bound none rest
      return (.negated inner, rest)
    | _, _ =>
      let (next, rest) ← readCommand bound tokens
      let pipe := match before with
        | some before => before.pipe next
        | none => next
      match rest with
      | .operator .pipe :: rest => readPipe bound (some pipe) (skipLines rest)
      | rest => some (pipe, rest)

/-- Reads one command with its redirections. -/
def readCommand : (bound : Nat) → List Token → Option (Command × List Token)
  | 0, _ => none
  | bound + 1, tokens => do
    let compound : Option (Command × List Token) ← match tokens, head? tokens with
      | .operator .opening :: rest, _ =>
        let (inner, rest) ← readList bound none rest
        match rest with
        | .operator .closing :: rest => some (some (.subshell inner, rest))
        | _ => none
      | _, some "\x7b" =>
        let (inner, rest) ← readList bound none (tokens.drop 1)
        some (some (inner, ← expect "\x7d" rest))
      | _, some "if" => (readBranch bound (tokens.drop 1)).map some
      | _, some "for" => (readEach bound (tokens.drop 1)).map some
      | _, some "while" => (readLoop bound true (tokens.drop 1)).map some
      | _, some "until" => (readLoop bound false (tokens.drop 1)).map some
      | .word _ :: .word word :: rest, some "case" =>
        let rest ← expect "in" (skipLines rest)
        (readCases bound word [] rest).map some
      | _, some word =>
        if closers.contains word then none
        else match functionName? tokens with
          | some (name, rest) => (readCommand bound rest).map fun (body, rest) => some (.define name body, rest)
          | none => some none
      | _, none => some none
    match compound with
    | some (inner, rest) =>
      let (redirects, rest) := readRedirects [] rest
      return (inner.sending redirects, rest)
    | none => readSimple [] [] [] tokens

/-- Reads a choice from behind its first word. -/
def readBranch : (bound : Nat) → List Token → Option (Command × List Token)
  | 0, _ => none
  | bound + 1, tokens => do
    let (condition, rest) ← readList bound none tokens
    let (yes, rest) ← readList bound none (← expect "then" rest)
    match head? rest with
    | some "elif" =>
      let (no, rest) ← readBranch bound (rest.drop 1)
      return (.choose condition yes no, rest)
    | some "else" =>
      let (no, rest) ← readList bound none (rest.drop 1)
      return (.choose condition yes no, ← expect "fi" rest)
    | _ => return (.choose condition yes .nothing, ← expect "fi" rest)

/-- Reads what is done in a loop. -/
def readBody : (bound : Nat) → List Token → Option (Command × List Token)
  | 0, _ => none
  | bound + 1, tokens => do
    let (body, rest) ← readList bound none (← expect "do" (skipLines tokens))
    return (body, ← expect "done" rest)

/-- Reads a loop over words from behind its first word. -/
def readEach : (bound : Nat) → List Token → Option (Command × List Token)
  | 0, _ => none
  | bound + 1, tokens => do
    let name ← head? tokens
    let rest := tokens.drop 1
    match expect "in" (skipLines rest) with
    | some rest =>
      let (words, rest) ← readWords [] rest
      let (body, rest) ← readBody bound rest
      return (.each name (some words) body, rest)
    | none =>
      let (body, rest) ← readBody bound (match rest with
        | .operator .stop :: rest => rest
        | rest => rest)
      return (.each name none body, rest)

/-- Reads a loop under a condition from behind its first word. -/
def readLoop : (bound : Nat) → (succeeds : Bool) → List Token → Option (Command × List Token)
  | 0, _, _ => none
  | bound + 1, succeeds, tokens => do
    let (condition, rest) ← readList bound none tokens
    let (body, rest) ← readBody bound rest
    return (.whilst succeeds condition body, rest)

/-- Reads the cases of a selection. -/
def readCases : (bound : Nat) → Word → (cases : List (List Word × Command)) → List Token →
    Option (Command × List Token)
  | 0, _, _, _ => none
  | bound + 1, word, cases, tokens =>
    let tokens := skipLines tokens
    match expect "esac" tokens with
    | some rest => some (.select word cases, rest)
    | none => do
      let (forms, rest) ← readForms [] (match tokens with
        | .operator .opening :: rest => rest
        | tokens => tokens)
      let (body, rest) ← readList bound none rest
      let cases := cases ++ [(forms, body)]
      match rest with
      | .operator .caseEnd :: rest => readCases bound word cases rest
      | rest => return (.select word cases, ← expect "esac" rest)

end

/-- The command that a script is. -/
def parse? (script : List Char) : Option Command := do
  let tokens ← tokens? (script.length + 1) script
  let (command, rest) ← readList (4 * tokens.length + 4) none tokens
  if rest.isEmpty then some command else none

end Shell

end TaskLease

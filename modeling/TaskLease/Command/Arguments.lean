import TaskLease.Time.DurationWords

/-!
# Arguments

The words of a command line. The first one names the command; options may stand anywhere behind it, and two
dashes alone end them. A value stands behind its option's name, or in the same word behind an equals sign,
and only there may it begin with a dash.

An option is settled, and its value judged, only when the next word that matters is reached. Of two faults
in one line the one that is reached first counts, except that a word that nobody knows is reported ahead
of a fault in the option before it.
-/

namespace TaskLease

/-- The name that the program goes by. -/
def programName : String := "shedlock"

/-- The version of the program. -/
def programVersion : String := "0.1.0"

/-- What is to be run under a lock. -/
structure RunArguments where
  name : String
  atMost : Option Duration := none
  atLeast : Option Duration := none
  keepAlive : Bool := false
  /-- The program and its arguments. -/
  child : List String
deriving DecidableEq, Repr

/-- What a command line asks for. -/
inductive Invocation where
  /-- Run a program under a lock. -/
  | run (arguments : RunArguments)
  /-- Print the record of a lock. -/
  | status (name : String)
  /-- Create what records are kept in. -/
  | initSchema
deriving DecidableEq, Repr

/-- The commands. -/
inductive CommandWord where
  | run
  | status
  | initSchema
deriving DecidableEq, Repr

namespace CommandWord

/-- All commands. -/
def all : List CommandWord := [.run, .status, .initSchema]

/-- The word for a command. -/
def word : CommandWord → String
  | .run => "run"
  | .status => "status"
  | .initSchema => "init-schema"

/-- The command that a word names. -/
def ofWord? (word : String) : Option CommandWord := all.find? fun command => command.word = word

end CommandWord

/-- The word that asks for help on commands. -/
def helpWord : String := "help"

/-- Why a command line is not run. Help and the version are asked for, the rest are faults. -/
inductive UsageFault where
  | help
  | version (text : String)
  /-- Nothing is asked for. -/
  | nothingAsked
  | unknownCommand
  | unknownWord
  | argumentMissing
  | valueMissing
  /-- A value is given to an option that takes none. -/
  | valueUnwanted
  | repeated
  | badDuration (text : String) (fault : DurationWords.Fault)
deriving DecidableEq, Repr

namespace UsageFault

/-- The exit status of a process that ends with a fault of its command line. -/
def exitStatus : UsageFault → Nat
  | .help | .version _ => 0
  | _ => 2

/-- What is said about a fault beyond its kind. -/
def message? : UsageFault → Option String
  | .version text => some text
  | .badDuration text fault => some s!"invalid duration '{text}': {fault.message}"
  | _ => none

end UsageFault

namespace Arguments

/-- The options of commands. -/
inductive Switch where
  | help
  | version
  | name
  | atMost
  | atLeast
  | keepAlive
deriving DecidableEq, Repr

/-- The long name of an option. -/
def Switch.word : Switch → String
  | .help => "help"
  | .version => "version"
  | .name => "name"
  | .atMost => "lock-at-most-for"
  | .atLeast => "lock-at-least-for"
  | .keepAlive => "keep-alive"

/-- Whether an option takes a value. -/
def Switch.takesValue : Switch → Bool
  | .name | .atMost | .atLeast => true
  | .help | .version | .keepAlive => false

/-- The options of a command, or those that stand before any. -/
def switches : Option CommandWord → List Switch
  | some .run => [.name, .atMost, .atLeast, .keepAlive, .help, .version]
  | _ => [.help, .version]

/-- What a word looks like. -/
inductive Shape where
  /-- Two dashes alone. -/
  | dashes
  | long (name : String) (value : Option String)
  /-- One dash and letters. -/
  | short (letters : List Char)
  | plain

/-- What a word looks like. A dash alone is a plain word. -/
def shape (word : String) : Shape :=
  match word.toList with
  | ['-', '-'] => .dashes
  | '-' :: '-' :: rest =>
    let name := String.ofList (rest.takeWhile (· ≠ '='))
    match rest.dropWhile (· ≠ '=') with
    | [] => .long name none
    | _ :: value => .long name (some (String.ofList value))
  | '-' :: c :: rest => .short (c :: rest)
  | _ => .plain

/-- What a command has been given so far. -/
structure Draft where
  name : Option String := none
  atMost : Option Duration := none
  atLeast : Option Duration := none
  keepAlive : Bool := false
  /-- Words that belong to no option. -/
  words : List String := []
  /-- Words behind two dashes, where those are the program to run. -/
  child : List String := []

/-- An option that is not settled yet, with its value, if that has come. -/
abbrev Awaited := Option (Switch × Option String)

/-- The duration in a value. -/
def durationOf (value : String) : Except UsageFault Duration :=
  match DurationWords.read value with
  | .ok duration => .ok duration
  | .error fault => .error (.badDuration value fault)

/-- The text that tells the version. -/
def versionText (command : Option CommandWord) : String :=
  match command with
  | some command => s!"{programName}-{command.word} {programVersion}\n"
  | none => s!"{programName} {programVersion}\n"

/-- Settles an option. No option may be given twice. -/
def settle (command : Option CommandWord) (draft : Draft) (switch : Switch) (value : Option String) :
    Except UsageFault Draft :=
  match switch, value with
  | .help, _ => .error .help
  | .version, _ => .error (.version (versionText command))
  | .keepAlive, _ => if draft.keepAlive then .error .repeated else .ok { draft with keepAlive := true }
  | .name, some value =>
    if draft.name.isSome then .error .repeated else .ok { draft with name := some value }
  | .atMost, some value =>
    if draft.atMost.isSome then .error .repeated
    else (durationOf value).map fun d => { draft with atMost := some d }
  | .atLeast, some value =>
    if draft.atLeast.isSome then .error .repeated
    else (durationOf value).map fun d => { draft with atLeast := some d }
  | .name, none | .atMost, none | .atLeast, none => .error .valueMissing

/-- Settles the option that is awaited, if one is. -/
def settleAwaited (command : Option CommandWord) (draft : Draft) : Awaited → Except UsageFault Draft
  | some (switch, value) => settle command draft switch value
  | none => .ok draft

/-- How many words that belong to no option a command takes. -/
def capacity : CommandWord → Nat
  | .status => 1
  | .run | .initSchema => 0

/-- Takes a word that belongs to no option. -/
def takeWord (command : CommandWord) (draft : Draft) (awaited : Awaited) (word : String) :
    Except UsageFault Draft :=
  if draft.words.length < capacity command then do
    let draft ← settleAwaited command draft awaited
    return { draft with words := draft.words ++ [word] }
  else .error .unknownWord

/-- Takes the words behind two dashes. -/
def takeRest (command : CommandWord) (draft : Draft) (awaited : Awaited) (words : List String) :
    Except UsageFault Draft :=
  match command with
  | .run => do return { ← settleAwaited command draft awaited with child := words }
  | .status | .initSchema => do
    let draft ← words.foldlM (fun draft word => takeWord command draft none word) draft
    settleAwaited command draft awaited

/-- Reads the words of a command. -/
def read (command : CommandWord) (draft : Draft) (awaited : Awaited) :
    List String → Except UsageFault Draft
  | [] => settleAwaited command draft awaited
  | word :: rest =>
    match shape word with
    | .dashes => takeRest command draft awaited rest
    | .long name value =>
      match (switches command).find? fun switch => switch.word = name with
      | none => .error .unknownWord
      | some switch =>
        match switch.takesValue, value with
        | false, some _ => .error .valueUnwanted
        | true, none => do
          let draft ← settleAwaited command draft awaited
          read command draft (some (switch, none)) rest
        | _, value => do
          let draft ← settleAwaited command draft awaited
          let draft ← settle command draft switch value
          read command draft none rest
    | .short letters => do
      let draft' ← match letters with
        | 'h' :: _ => settleAwaited command draft awaited
        | 'V' :: _ => settleAwaited command draft awaited
        | _ => .error .unknownWord
      settle command draft' (if letters.head? = some 'h' then .help else .version) none
    | .plain =>
      match awaited with
      | some (switch, none) => read command draft (some (switch, some word)) rest
      | awaited => do
        let draft ← takeWord command draft awaited word
        read command draft none rest

/-- What a finished draft asks for. -/
def Draft.finish (command : CommandWord) (draft : Draft) : Except UsageFault Invocation :=
  match command with
  | .run =>
    match draft.name, draft.child with
    | some name, _ :: _ =>
      .ok (.run {
        name
        atMost := draft.atMost
        atLeast := draft.atLeast
        keepAlive := draft.keepAlive
        child := draft.child })
    | _, _ => .error .argumentMissing
  | .status =>
    match draft.words with
    | name :: _ => .ok (.status name)
    | [] => .error .argumentMissing
  | .initSchema => .ok .initSchema

/-- Help on commands, which are named by the words. No command has commands of its own. -/
def readHelp : List String → UsageFault
  | [] => .help
  | [word] =>
    if (CommandWord.ofWord? word).isSome ∨ word = helpWord then .help else .unknownCommand
  | _ => .unknownCommand

/-- What a word means that stands before any command and names none. -/
def readLeading (word : String) : UsageFault :=
  match shape word with
  | .long name value =>
    match (switches none).find? fun switch => switch.word = name with
    | none => .unknownWord
    | some switch =>
      if value.isSome then .valueUnwanted
      else if switch = .help then .help
      else .version (versionText none)
  | .short ('h' :: _) => .help
  | .short ('V' :: _) => .version (versionText none)
  | .short _ => .unknownWord
  | .dashes | .plain => .unknownCommand

/-- What a command line asks for. -/
def parse : List String → Except UsageFault Invocation
  | [] => .error .nothingAsked
  | ["--"] => .error .nothingAsked
  | "--" :: word :: _ =>
    if (CommandWord.ofWord? word).isSome ∨ word = helpWord then .error .unknownWord
    else .error .unknownCommand
  | word :: rest =>
    if word = helpWord then .error (readHelp rest)
    else match CommandWord.ofWord? word with
      | none => .error (readLeading word)
      | some command => do
        let draft ← read command {} none rest
        draft.finish command

end Arguments

end TaskLease

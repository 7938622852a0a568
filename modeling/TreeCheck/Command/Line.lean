/-!
# Command lines

What the arguments of the program ask for. Options may stand before and after the command, each at
most once on either side; `--` ends the options, so that what follows are files. Arguments are
judged from left to right, and the first that settles the matter decides.
-/

set_option autoImplicit false

namespace TreeCheck.Command

inductive Misuse
  | noCommand
  | unknownCommand (name : String)
  /-- An argument has no meaning where it stands; `asFile` says that it could name a file. -/
  | unexpected (argument : String) (asFile : Bool)
  /-- An option that takes no value has one. -/
  | unexpectedValue (option value : String)
  /-- Verbosity is set twice on one side of the command. -/
  | repeatedVerbose
  /-- A file has an empty name. -/
  | emptyFile
deriving DecidableEq, Repr

def Misuse.message : Misuse → List String
  | .noCommand => ["error: a command is required"]
  | .unknownCommand name => ["error: unrecognized subcommand '" ++ name ++ "'"]
  | .unexpected argument asFile =>
    ["error: unexpected argument '" ++ argument ++ "' found"] ++
      if asFile then
        ["", "  tip: to pass '" ++ argument ++ "' as a value, use '-- " ++ argument ++ "'"]
      else []
  | .unexpectedValue option value =>
    ["error: unexpected value '" ++ value ++ "' for '" ++ option ++
      "' found; no more were expected"]
  | .repeatedVerbose => ["error: the argument '--verbose' cannot be used multiple times"]
  | .emptyFile => ["error: a value is required for '[TREES]...' but none was supplied"]

inductive Request
  | check (trees : List String)
  | init
  /-- The version of the program, or of one of its commands. -/
  | version (command : Option String)
  | help
  /-- The arguments make no sense. -/
  | invalid (misuse : Misuse)
deriving DecidableEq, Repr

inductive Argument
  /-- The end of the options. -/
  | separator
  /-- An option with a long name, and all that follows the two hyphens. -/
  | long (text : List Char)
  /-- Options with short names, one letter each. -/
  | short (letters : List Char)
  | word (text : String)

/-- The form of an argument. A lone hyphen is a word. -/
def Argument.ofString (text : String) : Argument :=
  match text.toList with
  | ['-', '-'] => .separator
  | '-' :: '-' :: rest => .long rest
  | ['-'] => .word text
  | '-' :: letters => .short letters
  | _ => .word text

inductive Effect
  /-- Reading goes on, now with this setting of verbosity. -/
  | verbose
  | settled (request : Request)

def takesFiles (command : Option String) : Bool :=
  command == some "check"

/-- The effect of an option with a short name; `verbose` says that verbosity is set on this side. -/
def shortOption (command : Option String) (verbose : Bool) (letter : Char) : Effect :=
  if letter = 'v' then if verbose then .settled (.invalid .repeatedVerbose) else .verbose
  else if letter = 'V' then .settled (.version command)
  else if letter = 'h' then .settled .help
  else .settled (.invalid (.unexpected (String.ofList ['-', letter]) (takesFiles command)))

/-- The effect of several options with short names: the setting of verbosity after them, or the
request that they settle. -/
def shortOptions (command : Option String) (verbose : Bool) : List Char → Except Request Bool
  | [] => .ok verbose
  | letter :: rest =>
    match shortOption command verbose letter with
    | .verbose => shortOptions command true rest
    | .settled request => .error request

def longNames : List String :=
  ["verbose", "version", "help"]

/-- The effect of an option with a long name, which may come with a value after an equals sign. No
option takes one. -/
def longOption (command : Option String) (verbose : Bool) (text : List Char) :
    Except Request Bool :=
  let name := String.ofList (text.takeWhile (· != '='))
  match text.dropWhile (· != '=') with
  | _ :: value =>
    if name ∈ longNames then
      .error (.invalid (.unexpectedValue ("--" ++ name) (String.ofList value)))
    else .error (.invalid (.unexpected ("--" ++ name) (takesFiles command)))
  | [] =>
    if name = "verbose" then
      if verbose then .error (.invalid .repeatedVerbose) else .ok true
    else if name = "version" then .error (.version command)
    else if name = "help" then .error .help
    else .error (.invalid (.unexpected ("--" ++ name) (takesFiles command)))

def option (command : Option String) (verbose : Bool) : Argument → Except Request Bool
  | .long text => longOption command verbose text
  | .short letters => shortOptions command verbose letters
  | .separator | .word _ => .ok verbose

/-- Reads the arguments after a command. `accept` says what the command does with a word, or why it
refuses it, and `done` what the command asks for in the end. -/
def readCommand {α : Type} (command : String) (accept : α → String → Except Misuse α)
    (done : α → Request) : (verbose ended : Bool) → α → List String → Request
  | _, _, state, [] => done state
  | verbose, true, state, argument :: rest =>
    match accept state argument with
    | .ok state => readCommand command accept done verbose true state rest
    | .error misuse => .invalid misuse
  | verbose, false, state, argument :: rest =>
    match Argument.ofString argument with
    | .separator => readCommand command accept done verbose true state rest
    | .word text =>
      match accept state text with
      | .ok state => readCommand command accept done verbose false state rest
      | .error misuse => .invalid misuse
    | other =>
      match option (some command) verbose other with
      | .ok verbose => readCommand command accept done verbose false state rest
      | .error request => request

/-- Reads the arguments of `check`, which are tree files; an empty one is refused. -/
def readCheck (arguments : List String) : Request :=
  let accept (trees : List String) (text : String) : Except Misuse (List String) :=
    if text.isEmpty then .error .emptyFile else .ok (trees ++ [text])
  readCommand "check" accept .check false false [] arguments

def readInit (arguments : List String) : Request :=
  readCommand "init" (fun () text => .error (.unexpected text false)) (fun () => .init) false false
    () arguments

/-- Reads the arguments of `help`, which may name one command. -/
def readHelp : List String → Request
  | [] => .help
  | command :: rest =>
    if command ∈ ["check", "c", "init", "help"] then
      match rest with
      | [] => .help
      | next :: _ => .invalid (.unknownCommand next)
    else .invalid (.unknownCommand command)

/-- Reads the arguments of the program. A command must be given, before the end of the options. -/
def readArguments (verbose : Bool) : List String → Request
  | [] => .invalid .noCommand
  | argument :: rest =>
    match Argument.ofString argument with
    | .separator =>
      match rest with
      | [] => .invalid .noCommand
      | name :: _ => .invalid (.unknownCommand name)
    | .word text =>
      if text = "check" ∨ text = "c" then readCheck rest
      else if text = "init" then readInit rest
      else if text = "help" then readHelp rest
      else .invalid (.unknownCommand text)
    | other =>
      match option none verbose other with
      | .ok verbose => readArguments verbose rest
      | .error request => request

def Request.ofArguments (arguments : List String) : Request :=
  readArguments false arguments

end TreeCheck.Command

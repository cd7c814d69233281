import Triage.Handle

/-! What can go wrong, by cause, and the wording of each cause. -/

namespace Triage

inductive IoError where
  | notFound
  | permissionDenied
  | notADirectory
  | isADirectory
  | nameTooLong
  | argumentTooLong
  | nulByte
  | invalidUtf8
  deriving DecidableEq, Repr

def IoError.message : IoError → String
  | .notFound => "No such file or directory (os error 2)"
  | .permissionDenied => "Permission denied (os error 13)"
  | .notADirectory => "Not a directory (os error 20)"
  | .isADirectory => "Is a directory (os error 21)"
  | .nameTooLong => "File name too long (os error 36)"
  | .argumentTooLong => "Argument list too long (os error 7)"
  | .nulByte => "nul byte found in provided data"
  | .invalidUtf8 => "stream did not contain valid UTF-8"

inductive Kind where
  | nil
  | boolean
  | integer
  | number
  | string
  | table
  | function
  | userdata
  deriving DecidableEq, Repr

def Kind.name : Kind → String
  | .nil => "nil"
  | .boolean => "boolean"
  | .integer => "integer"
  | .number => "number"
  | .string => "string"
  | .table => "table"
  | .function => "function"
  | .userdata => "userdata"

inductive ArgumentError where
  | queryText (found : Kind)
  | logLevel
  | tagTarget (found : Kind)
  | noMessages
  | noTags
  | inputOptions (found : Kind)
  | optionText (field : String) (found : Kind)
  | inputCallback (found : Kind)
  | spawnOptions (found : Kind)
  | spawnArgv (found : Kind)
  | spawnArgument (found : Kind)
  | spawnEmpty
  | spawnTimeout (found : Kind)
  | theme (found : Kind)
  deriving DecidableEq, Repr

def ArgumentError.message : ArgumentError → String
  | .queryText k => "query.new expects a string, got " ++ k.name
  | .logLevel => "log level must be a name"
  | .tagTarget k => "tag expects a message or a list of messages, got " ++ k.name
  | .noMessages => "tag: no messages given"
  | .noTags => "tag: no tags given"
  | .inputOptions k => "input expects an options table, got " ++ k.name
  | .optionText field k => field ++ " must be a string or nil, got " ++ k.name
  | .inputCallback k => "input: with_input must be a function or nil, got " ++ k.name
  | .spawnOptions k => "spawn expects an options table, got " ++ k.name
  | .spawnArgv k => "spawn: argv must be a list of strings, got " ++ k.name
  | .spawnArgument k => "spawn: all command arguments must be strings, got " ++ k.name
  | .spawnEmpty => "spawn requires at least one command argument"
  | .spawnTimeout k => "spawn: timeout must be a number of seconds, got " ++ k.name
  | .theme k => "set_theme expects a table, got " ++ k.name

inductive Exit where
  | code (n : Nat)
  | signal (n : Nat)
  deriving DecidableEq, Repr

def Exit.succeeded (e : Exit) : Bool := e == .code 0

def signalName : Nat → String
  | 1 => " (SIGHUP)" | 2 => " (SIGINT)" | 3 => " (SIGQUIT)" | 4 => " (SIGILL)" | 5 => " (SIGTRAP)"
  | 6 => " (SIGABRT)" | 7 => " (SIGBUS)" | 8 => " (SIGFPE)" | 9 => " (SIGKILL)" | 10 => " (SIGUSR1)"
  | 11 => " (SIGSEGV)" | 12 => " (SIGUSR2)" | 13 => " (SIGPIPE)" | 14 => " (SIGALRM)" | 15 => " (SIGTERM)"
  | _ => ""

def Exit.describe : Exit → String
  | .code n => "exit status: " ++ toString n
  | .signal n => "signal: " ++ toString n ++ signalName n

inductive IndexError where
  | exited (program : String) (exit : Exit) (stderr : String)
  | lengthMismatch (found shown : Nat)
  deriving DecidableEq, Repr

def IndexError.message : IndexError → String
  | .exited program exit stderr => program ++ " exited with " ++ exit.describe ++ ": " ++ stderr
  | .lengthMismatch found shown =>
    "search found " ++ toString found ++ " threads but show returned " ++ toString shown

inductive JsonFault where
  | syntaxFault
  | dataFault
  | endFault
  deriving DecidableEq, Repr

inductive ConfigError where
  | keyTable (found : Kind)
  | script (path : String) (cause : IoError)
  deriving DecidableEq, Repr

def ConfigError.message : ConfigError → String
  | .keyTable k => "global `key` must be a table, found " ++ k.name
  | .script path cause => "cannot read script " ++ path ++ ": " ++ cause.message

/-- A failure of script code: text that does not parse, an error raised while it runs, or a value refused
where the host expected another kind. -/
inductive ScriptError where
  | parse (text : String)
  | raised (text : String)
  | conversion (text : String)
  deriving DecidableEq, Repr

def ScriptError.message : ScriptError → String
  | .parse text => "syntax error: " ++ text
  | .raised text => "runtime error: " ++ text
  | .conversion text => text

inductive Error where
  | invalidArguments (cause : ArgumentError)
  | invalidClosure (handle : Handle)
  | script (cause : ScriptError)
  | scriptLoad (chunk : String) (cause : ScriptError)
  | index (cause : IndexError)
  | json (fault : JsonFault)
  | io (cause : IoError)
  | config (cause : ConfigError)
  deriving DecidableEq, Repr

def Error.message : Error → String
  | .invalidArguments cause => "Invalid arguments: " ++ cause.message
  | .invalidClosure handle => "Invalid closure for " ++ handle.text ++ ": expected a function or nil"
  | .script cause => "Script error: " ++ cause.message
  | .scriptLoad chunk cause => "Error executing " ++ chunk ++ ": " ++ cause.message
  | .index cause => "notmuch error: " ++ cause.message
  | .json _ => "Serialization error"
  | .io cause => "I/O error: " ++ cause.message
  | .config cause => "Configuration error: " ++ cause.message

end Triage

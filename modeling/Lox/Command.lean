namespace Lox

inductive Command where
  | file (path : String)
  | repl
deriving DecidableEq, Repr

inductive ArgumentFault where
  | help
  | version
  | missingCommand
  | missingPath
  | unknownArgument
  | invalidCommand
  | emptyPath
  | unexpectedValue
deriving DecidableEq, Repr

def ArgumentFault.exitCode : ArgumentFault → UInt32
  | .help | .version => 0
  | _ => 2

namespace Command

inductive Form where
  | separator
  | help (hasValue : Bool)
  | version (hasValue : Bool)
  | unknown
  | plain
deriving DecidableEq, Repr

def formOf (arg : String) : Form :=
  match arg.toList with
  | ['-', '-'] => .separator
  | '-' :: '-' :: long =>
    let hasValue := long.contains '='
    match String.ofList (long.takeWhile (· != '=')) with
    | "help" => .help hasValue
    | "version" => .version hasValue
    | _ => .unknown
  | '-' :: 'h' :: _ => .help false
  | '-' :: 'V' :: _ => .version false
  | '-' :: _ :: _ => .unknown
  | _ => .plain

def helpFault (path : Option String) (hasValue : Bool) : ArgumentFault :=
  if hasValue then .unexpectedValue else if path = some "" then .emptyPath else .help

def parseFile (path : Option String) (separated : Bool) : List String → Except ArgumentFault Command
  | [] =>
    match path with
    | none => .error .missingPath
    | some path => if path = "" then .error .emptyPath else .ok (.file path)
  | arg :: rest =>
    match if separated then .plain else formOf arg with
    | .separator => parseFile path true rest
    | .help hasValue => .error (helpFault path hasValue)
    | .version _ | .unknown => .error .unknownArgument
    | .plain =>
      match path with
      | none => parseFile (some arg) separated rest
      | some _ => .error .unknownArgument

def parseRepl : List String → Except ArgumentFault Command
  | [] => .ok .repl
  | arg :: rest =>
    match formOf arg with
    | .separator => if rest.isEmpty then .ok .repl else .error .unknownArgument
    | .help hasValue => .error (helpFault none hasValue)
    | _ => .error .unknownArgument

def names : List String :=
  ["file", "repl", "help"]

def helpOn : List String → ArgumentFault
  | [] => .help
  | [name] => if names.contains name then .help else .invalidCommand
  | _ => .invalidCommand

/-- No command can follow the separator, not even one that exists. -/
def afterSeparator : List String → ArgumentFault
  | [] => .missingCommand
  | arg :: _ => if names.contains arg then .unknownArgument else .invalidCommand

def parse : List String → Except ArgumentFault Command
  | [] => .error .missingCommand
  | arg :: rest =>
    match formOf arg with
    | .separator => .error (afterSeparator rest)
    | .help hasValue => .error (helpFault none hasValue)
    | .version hasValue => .error (if hasValue then .unexpectedValue else .version)
    | .unknown => .error .unknownArgument
    | .plain =>
      match arg with
      | "file" => parseFile none false rest
      | "repl" => parseRepl rest
      | "help" => .error (helpOn rest)
      | _ => .error .invalidCommand

end Command

end Lox

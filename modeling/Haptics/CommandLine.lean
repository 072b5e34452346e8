/-!
# Command lines

What the arguments of the server program ask for. Arguments are read from left to right, the first
that is not known or asks for help decides, and of several configuration files the last counts.
-/

namespace Haptics

inductive CommandLine
  | help
  | unknownArgument (argument : String)
  /-- Runs a server from a configuration file. -/
  | run (path : String)
deriving DecidableEq, Repr

/-- What a program that ends at once leaves behind. -/
structure Ending where
  exitCode : UInt32
  /-- What is written to the standard error stream. -/
  text : String
deriving DecidableEq, Repr

namespace CommandLine

/-- The configuration file that is read if none is given. -/
def defaultPath : String := "tactile-server.yaml"

/-- What stands before the path in an argument that names a configuration file. -/
def configMark : List Char := "--config=".toList

/-- Reads arguments, with the path that counts so far. -/
def parseFrom (path : String) : List String → CommandLine
  | [] => .run path
  | "--config" :: next :: rest => parseFrom next rest
  | argument :: rest =>
    if configMark.isPrefixOf argument.toList then
      parseFrom (String.ofList (argument.toList.drop configMark.length)) rest
    else if argument = "--help" ∨ argument = "-h" then .help
    else .unknownArgument argument

/-- Reads the arguments of the program. -/
def parse (arguments : List String) : CommandLine := parseFrom defaultPath arguments

def usage : String :=
  "Usage: tactile-server [OPTIONS]\n\nOptions:\n" ++
  "  --config=PATH    Path to config file (default: tactile-server.yaml)\n" ++
  "  --help, -h       Show this help\n"

/-- How the program ends if its configuration file does not exist. -/
def notFound (path : String) : Ending :=
  { exitCode := 1,
    text := "ERROR: Config file not found: " ++ path ++
      "\n\nCreate a config file or specify path with --config=PATH\n" }

/-- How the program ends at once, if it does. It goes on with a configuration file that exists. -/
def ending? (c : CommandLine) (pathExists : Bool) : Option Ending :=
  match c with
  | help => some { exitCode := 0, text := usage }
  | unknownArgument argument =>
    some { exitCode := 1,
           text := "Unknown argument: " ++ argument ++ "\nUse --help for usage information\n" }
  | run path => if pathExists then none else some (notFound path)

end CommandLine

end Haptics

import ScriptAssist.Catalog.Vocabulary
import ScriptAssist.Text.Line
import ScriptAssist.Text.Printable

/-!
# The command line

Arguments are read from left to right, and the first one that decides the
outcome does: a wish for help or for the version, or a fault.  Single letters
may be joined behind one hyphen, and nothing is an option after `--`.
-/

namespace ScriptAssist
namespace CommandLine

inductive Switch where
  | verbose
  | stdio
  | help
  | version
  deriving DecidableEq, Repr

namespace Switch

def ofLetter? : Char → Option Switch
  | 'v' => some .verbose
  | 'h' => some .help
  | 'V' => some .version
  | _ => none

def ofName? : String → Option Switch
  | "verbose" => some .verbose
  | "stdio" => some .stdio
  | "help" => some .help
  | "version" => some .version
  | _ => none

-- Dots mark an option that may be repeated.
def text : Switch → String
  | .verbose => "--verbose..."
  | .stdio => "--stdio"
  | .help => "--help"
  | .version => "--version"

def serving : List Switch :=
  [.verbose, .stdio]

end Switch

inductive Fault where
  | unknownOption (name : String)
  | unexpectedArgument (argument : String)
  | repeated (option : Switch)
  | unexpectedValue (option : Switch) (value : String)
  deriving DecidableEq, Repr

inductive Outcome where
  | serve (stdio : Bool)
  | help
  | version
  -- The options in `used` were accepted before the fault.
  | fault (reason : Fault) (used : List Switch)
  deriving DecidableEq, Repr

/-!
# Reading arguments

What has been read so far are the options that were used, each once, in the
order in which they were used last.  A wish or a fault ends the reading, and no
option takes a value.
-/

def note (used : List Switch) (option : Switch) : Except Outcome (List Switch) :=
  match option with
  | .verbose => .ok (used.erase .verbose ++ [.verbose])
  | .stdio =>
      -- Only the transport may not be named twice.
      if used.contains .stdio then .error (.fault (.repeated .stdio) used)
      else .ok (used ++ [.stdio])
  | .help => .error .help
  | .version => .error .version

def readLetters (used : List Switch) : List Char → Except Outcome (List Switch)
  | [] => .ok used
  | c :: rest =>
      match Switch.ofLetter? c with
      | none => .error (.fault (.unexpectedArgument (String.ofList ['-', c])) used)
      | some option => do readLetters (← note used option) rest

def readName (used : List Switch) (body : List Char) : Except Outcome (List Switch) :=
  let name := String.ofList (body.takeWhile (· != '='))
  match Switch.ofName? name, body.dropWhile (· != '=') with
  | none, _ => .error (.fault (.unknownOption ("--" ++ name)) used)
  | some option, [] => note used option
  | some option, _ :: value =>
      .error (.fault (.unexpectedValue option (String.ofList value)) used)

def readArgument (used : List Switch) (argument : String) :
    Except Outcome (List Switch) :=
  match argument.toList with
  | '-' :: '-' :: body => readName used body
  | '-' :: c :: rest => readLetters used (c :: rest)
  | _ => .error (.fault (.unexpectedArgument argument) used)

def readFrom (used : List Switch) : List String → Outcome
  | [] => .serve (used.contains .stdio)
  | "--" :: [] => .serve (used.contains .stdio)
  | "--" :: argument :: _ => .fault (.unexpectedArgument argument) used
  | argument :: rest =>
      match readArgument used argument with
      | .ok used => readFrom used rest
      | .error outcome => outcome

def read (arguments : List String) : Outcome :=
  readFrom [] arguments

/-!
# Reports

What the program prints for a command line, line by line, when its client sends
nothing.
-/

structure Report where
  exitCode : Nat
  output : List String := []
  log : List String := []
  deriving DecidableEq, Repr

def startLine (stdio : Bool) : String :=
  "INFO bamc_lsp: bamc-lsp starting on stdio commands="
    ++ toString Vocabulary.commands.size
    ++ " version=\"0.1.0\" stdio_flag=" ++ (if stdio then "true" else "false")

def exitLine : String :=
  "INFO bamc_lsp: bamc-lsp exiting"

def generalUsage : String :=
  "bamc-lsp [OPTIONS]"

def helpText : List String :=
  ["Language server for BAMC/BAMM scripts",
   "",
   "Usage: " ++ generalUsage,
   "",
   "Options:",
   "  -v, --verbose...  Increase logging verbosity (-v: debug, -vv+: trace)",
   "      --stdio       Ignored. Accepted because editors pass it; "
     ++ "stdin/stdout is the only transport",
   "  -h, --help        Print help",
   "  -V, --version     Print version"]

def quote (argument : String) : String :=
  "'" ++ String.ofList (Text.printable argument.toList) ++ "'"

namespace Fault

def message : Fault → String
  | .unknownOption argument | .unexpectedArgument argument =>
      "unexpected argument " ++ quote argument ++ " found"
  | .repeated option =>
      "the argument " ++ quote option.text ++ " cannot be used multiple times"
  | .unexpectedValue option value =>
      "unexpected value " ++ quote value ++ " for " ++ quote option.text
        ++ " found; no more were expected"

/-- How the program is to be called instead, after the options in `used`. Where an
option has a value and others were used, those that serve are named as one choice. -/
def usage (used : List Switch) : Fault → String
  | .unknownOption _ =>
      if used.isEmpty then generalUsage
      else " ".intercalate ("bamc-lsp" :: used.map Switch.text)
  | .unexpectedValue option _ =>
      if used.isEmpty then "bamc-lsp " ++ option.text
      else
        let own := if Switch.serving.contains option then [] else [option.text]
        let choice := "<" ++ "|".intercalate (Switch.serving.map Switch.text) ++ ">"
        " ".intercalate ("bamc-lsp" :: own ++ [choice])
  | .unexpectedArgument _ | .repeated _ => generalUsage

end Fault

def Outcome.report : Outcome → Report
  | .serve stdio => { exitCode := 0, log := [startLine stdio, exitLine] }
  | .help => { exitCode := 0, output := helpText }
  | .version => { exitCode := 0, output := ["bamc-lsp 0.1.0"] }
  | .fault reason used =>
      { exitCode := 2
        -- A quoted argument may spread the fault over several lines.
        log := (Text.lines ("error: " ++ reason.message).toList).map String.ofList
          ++ ["", "Usage: " ++ reason.usage used, "",
            "For more information, try '--help'."] }

end CommandLine
end ScriptAssist

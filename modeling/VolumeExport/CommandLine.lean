import VolumeExport.Text.Letter

namespace VolumeExport.CommandLine

def controller : String := "controller"

/-- What a command line asks for. -/
inductive Demand
  | help
  | misuse
  | controller
  deriving DecidableEq, Repr

/-- The exit code of a command line that runs no command. -/
def Demand.exitCode? : Demand → Option Nat
  | .help => some 0
  | .misuse => some 2
  | .controller => none

/-- What a word is. -/
inductive Word
  | plain
  | help
  /-- The option for help with a value, which it does not take. -/
  | helpWithValue
  | unknownOption
  deriving DecidableEq, Repr

def isDigit (c : Char) : Bool := (Text.digitValue? c).isSome

/-- Whether the characters behind a minus sign make a number: `7`, `7.5` or `.5`. A line break at
the end does not count. -/
def isNumber (cs : List Char) : Bool :=
  let cs := if cs.getLast? = some '\n' then cs.dropLast else cs
  match cs.dropWhile isDigit with
  | [] => !cs.isEmpty
  | '.' :: places => !places.isEmpty && places.all isDigit
  | _ => false

/-- A word that begins like an option without being one. A word with a space is never taken for
an option. -/
def otherWord (cs : List Char) : Word :=
  if isNumber cs || cs.contains ' ' then .plain else .unknownOption

/-- The word `--cs`. The option may be cut short. -/
def longWord (cs : List Char) : Word :=
  if (cs.takeWhile (· ≠ '=')).isPrefixOf "help".toList then
    if cs.contains '=' then .helpWithValue else .help
  else otherWord ('-' :: cs)

/-- The word `-cs`. The option may be given more than once, also behind an equals sign. -/
def shortWord (cs : List Char) : Word :=
  match cs with
  | 'h' :: '=' :: more => if !more.isEmpty && more.all (· = 'h') then .help else .helpWithValue
  | 'h' :: more => if more.all (· = 'h') then .help else .helpWithValue
  | _ => if cs.isEmpty then .plain else otherWord cs

def wordOf (word : String) : Word :=
  match word.toList with
  | '-' :: '-' :: cs => longWord cs
  | '-' :: cs => shortWord cs
  | _ => .plain

/-- Reads the words behind the command, none of which may be left over. `stray` says that there is
such a word already. -/
def parseRest (stray : Bool) : List String → Demand
  | [] => if stray then .misuse else .controller
  | word :: words =>
    if word = "--" then .misuse
    else
      match wordOf word with
      | .help => .help
      | .helpWithValue => .misuse
      | _ => parseRest true words

/-- Reads words up to the command. Behind two dashes no word is taken for the command. -/
def parseFrom (stray : Bool) : List String → Demand
  | [] => .misuse
  | word :: words =>
    if word = "--" then .misuse
    else
      match wordOf word with
      | .help => .help
      | .helpWithValue => .misuse
      | .unknownOption => parseFrom true words
      | .plain => if word = controller then parseRest stray words else .misuse

def parse (words : List String) : Demand := parseFrom false words

def usage : String := "usage: [-h] " ++ controller

end VolumeExport.CommandLine

import Scriptlet.Session.Basic
import Scriptlet.Text.Quoted
import Scriptlet.Text.UpperCase

/-! The command line: with one argument a script is run, without any a prompt
session is held. The exit status tells a script with syntax errors, one that
failed, and one that could not be read apart. The log is shown at the levels
DEBUG and NOTSET, and an unknown level is refused before anything else. -/
namespace Scriptlet.CommandLine

open Session

inductive Status
  | success | usage | invalidScript | unreadable | failed
  deriving DecidableEq, Inhabited

def Status.code : Status → Nat
  | success => 0
  | usage => 64
  | invalidScript => 65
  | unreadable => 66
  | failed => 70

/-- How a command ended: with a status, or by refusing a log level. -/
inductive Ending
  | exit (status : Status)
  | unknownLevel (name : String)
  | stuck (operator : Token)
  deriving DecidableEq, Inhabited

def unknownLevelMessage (name : String) : String := "Unknown level: " ++ Text.quoted name

structure Report where
  events : List Event
  ending : Ending
  deriving Inhabited

/-- Known levels, and whether the log is shown at them. -/
def levels : List (String × Bool) :=
  [("CRITICAL", false), ("FATAL", false), ("ERROR", false), ("WARN", false), ("WARNING", false),
   ("INFO", false), ("DEBUG", true), ("NOTSET", true)]

def showLog : Option String → Except String Bool
  | none | some "" => .ok false
  | some level =>
    let name := Text.upperCase level
    match levels.lookup name with
    | some shown => .ok shown
    | none => .error name

/-- What the arguments ask for, the first one being the program's name. -/
inductive Task
  | usage (program : String)
  | script (path : String)
  | prompt

def task : List String → Task
  | [_, path] => .script path
  | program :: _ :: _ :: _ => .usage program
  | _ => .prompt

/-- The files of the surroundings: their bytes or the cause why there are none, and what is
said of bytes that are no text. -/
structure Files where
  read : String → Except String ByteArray
  undecodable : ByteArray → String

/-- The text of a script: bytes that are valid UTF-8, with unified line ends. -/
def decode? (bytes : ByteArray) : Option String :=
  (String.fromUTF8? bytes).map fun text => String.ofList (Text.unified text.toList)

def ending : Verdict → Ending
  | .completed => .exit .success
  | .rejected _ => .exit .invalidScript
  | .halted _ => .exit .failed
  | .stuck operator => .stuck operator

def runSource (settings : Settings) (source : String) : Report :=
  let turn := Session.run settings false source .fresh
  ⟨turn.events, ending turn.verdict⟩

def unreadable (cause : String) : Report :=
  ⟨[.err ("Error reading file: " ++ cause ++ "\n")], .exit .unreadable⟩

def runScript (settings : Settings) (files : Files) (path : String) : Report :=
  match files.read path with
  | .error cause => unreadable cause
  | .ok bytes =>
    match decode? bytes with
    | none => unreadable (files.undecodable bytes)
    | some source => runSource settings source

def runPrompt (settings : Settings) (input : List Char) : Report :=
  let conversation := Session.converse settings input .fresh
  match conversation.stuck with
  | some operator => ⟨conversation.events, .stuck operator⟩
  | none => ⟨conversation.events, .exit .success⟩

def run (settings : Settings) (arguments : List String) (level : Option String)
    (files : Files) (input : String) : Report :=
  match showLog level with
  | .error name => ⟨[], .unknownLevel name⟩
  | .ok shown =>
    let report : Report := match task arguments with
      | .usage program => ⟨[.err ("Usage: " ++ program ++ " [script]\n")], .exit .usage⟩
      | .script path => runScript settings files path
      | .prompt => runPrompt settings input.toList
    { report with events := visible shown report.events }

end Scriptlet.CommandLine

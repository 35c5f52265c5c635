import Scriptlet.CommandLine

/-! The program: arguments, files and streams of the process. -/
namespace Scriptlet.Main

open Session

def write : Event → IO Unit
  | .out text => do
    let stream ← IO.getStdout
    stream.putStr text
    stream.flush
  | .err text => do
    let stream ← IO.getStderr
    stream.putStr text
    stream.flush
  | .log _ _ => pure ()

def finish (ending : CommandLine.Ending) : IO UInt32 := do
  match ending with
  | .exit status => return UInt32.ofNat status.code
  | .unknownLevel name =>
    write (.err (CommandLine.unknownLevelMessage name ++ "\n"))
    return 1
  | .stuck operator =>
    write (.err ("Unknown operator '" ++ operator.lexeme ++ "'\n"))
    return 1

def read (path : String) : IO (Except String ByteArray) := do
  match ← (IO.FS.readBinFile path).toBaseIO with
  | .ok bytes => return .ok bytes
  | .error cause => return .error (toString cause)

partial def converse (showLog : Bool) (session : Session) : IO UInt32 := do
  write invitation
  let line ← (← IO.getStdin).getLine
  match answer? .standard line.toList session with
  | none =>
    write farewell
    finish (.exit .success)
  | some turn =>
    (visible showLog turn.events).forM write
    match turn.stuck? with
    | some operator => finish (.stuck operator)
    | none => converse showLog turn.session

def run (arguments : List String) (level : Option String) : IO UInt32 := do
  match CommandLine.task arguments, CommandLine.showLog level with
  | .prompt, .ok showLog => converse showLog .fresh
  | task, _ =>
    let content ← match task with
      | .script path => read path
      | _ => pure (.error "")
    let report := CommandLine.run .standard arguments level ⟨fun _ => content, fun _ => "no UTF-8"⟩ ""
    report.events.forM write
    finish report.ending

end Scriptlet.Main

def main (arguments : List String) : IO UInt32 := do
  Scriptlet.Main.run ("scriptlet" :: arguments) (← IO.getEnv "TREELOX_LOG_LEVEL")

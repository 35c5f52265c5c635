import Scriptlet.Parse.Statement
import Scriptlet.Run.Execute
import Scriptlet.Text.Line
import Scriptlet.Token.Scan

/-! Sessions: source texts that run one after the other on the same global variables. What a
session writes goes to its output, to its error stream and to the log, which a command line
may show on the error stream or not at all. A text with a syntax error is reported and not
run. Interactively a text that is a single expression is printed, any other text is a
program. In a prompt session each line of the input runs interactively, and no line's error
marks outlive it; the session ends with the input or with a line that says quit. -/
namespace Scriptlet

structure Session where
  globals : Frame
  hadError : Bool
  hadRuntimeError : Bool
  deriving DecidableEq, Inhabited

namespace Session

inductive Channel
  | scanner | parser | driver
  deriving DecidableEq, Inhabited

def Channel.name : Channel → String
  | scanner => "treelox.scanner"
  | parser => "treelox.parser"
  | driver => "treelox.lox"

inductive Event
  | out (text : String)
  | err (text : String)
  | log (channel : Channel) (message : String)
  deriving DecidableEq, Inhabited

/-- The event on the streams, where log messages are lines of the error stream. -/
def Event.logged : Event → Event
  | log channel message => err ("DEBUG " ++ channel.name ++ ": " ++ message ++ "\n")
  | event => event

def Event.isLog : Event → Bool
  | log _ _ => true
  | _ => false

def visible (showLog : Bool) (events : List Event) : List Event :=
  if showLog then events.map Event.logged else events.filter (!·.isLog)

def fresh : Session := ⟨.empty, false, false⟩

structure Settings where
  limits : Parse.Limits
  depth : Depth
  deriving DecidableEq, Inhabited

def Settings.standard : Settings := ⟨.standard, .standard⟩

/-- How a source text ended. An operator without a meaning, which no parse makes,
would end the session. -/
inductive Verdict
  | completed
  | rejected (diagnostics : List Diagnostic)
  | halted (error : RuntimeError)
  | stuck (operator : Token)
  deriving DecidableEq, Inhabited

structure Turn where
  session : Session
  events : List Event
  verdict : Verdict
  deriving Inhabited

def Turn.stuck? (turn : Turn) : Option Token :=
  match turn.verdict with
  | .stuck operator => some operator
  | _ => none

def printed (output : String) : List Event :=
  if output.isEmpty then [] else [.out output]

def halted (error : RuntimeError) : List Event :=
  [.log .driver ("Execution halted by " ++ error.category), .err (error.report ++ "\n")]

def execute (settings : Settings) (program : List Stmt) (session : Session) : Turn :=
  let outcome := interpret settings.depth program session.globals
  let after := { session with globals := outcome.globals }
  match outcome.failure with
  | none => ⟨after, printed outcome.output, .completed⟩
  | some (.raised error) =>
    ⟨{ after with hadRuntimeError := true }, printed outcome.output ++ halted error, .halted error⟩
  | some (.unknownOperator operator) => ⟨after, printed outcome.output, .stuck operator⟩

def scanned (tokens : List Token) : Event :=
  .log .scanner ("Scanned " ++ toString tokens.length ++ " tokens over " ++
    toString ((tokens.getLast?.map Token.line).getD 1) ++ " lines")

def parsed (program : Parse.Parsed (List Stmt)) : Event :=
  .log .parser ("Parsed " ++ toString program.tree.length ++ " statements with " ++
    toString program.diagnostics.length ++ " errors")

def runProgram (settings : Settings) (tokens : List Token) (session : Session) : Turn :=
  let program := Parse.program settings.limits tokens
  if program.isValid then
    let turn := execute settings program.tree session
    { turn with events := parsed program :: turn.events }
  else
    ⟨{ session with hadError := true },
      parsed program :: program.diagnostics.map fun d => .err (d.report ++ "\n"),
      .rejected program.diagnostics⟩

/-- Runs a token list, a single expression being printed. -/
def runInteractive (settings : Settings) (tokens : List Token) (session : Session) : Turn :=
  match (Parse.bareExpression settings.limits tokens).tree with
  | some value =>
    let turn := execute settings [.print value] session
    { turn with
      events := .log .driver "Evaluating bare expression in REPL mode" :: turn.events }
  | none => runProgram settings tokens session

def run (settings : Settings) (interactive : Bool) (source : String) (session : Session) : Turn :=
  let tokens := Token.scan source
  let turn :=
    if interactive then runInteractive settings tokens session
    else runProgram settings tokens session
  { turn with events := scanned tokens :: turn.events }

def isQuit (line : List Char) : Bool := Text.trimmed line == "quit".toList

def runLine (settings : Settings) (line : List Char) (session : Session) : Turn :=
  let turn := run settings true (String.ofList line) session
  { turn with session := { turn.session with hadError := false, hadRuntimeError := false } }

/-- What a session does with a line of input. It ends with a line that says quit,
or with the empty one, which only the end of the input gives. -/
def answer? (settings : Settings) (line : List Char) (session : Session) : Option Turn :=
  if line.isEmpty || isQuit line then none else some (runLine settings line session)

structure Conversation where
  session : Session
  events : List Event
  unread : List Char
  stuck : Option Token
  deriving Inhabited

def invitation : Event := .out "> "

def farewell : Event := .out "Bye.\n"

private theorem answered_shorter {settings : Settings} {input : List Char} {session : Session}
    {turn : Turn} (answered : answer? settings (Text.splitLine input).1 session = some turn) :
    (Text.splitLine input).2.length < input.length := by
  apply Text.splitLine_shorter
  rintro rfl
  simp [answer?, Text.splitLine] at answered

def converse (settings : Settings) (input : List Char) (session : Session) : Conversation :=
  match _answered : answer? settings (Text.splitLine input).1 session with
  | none => ⟨session, [invitation, farewell], (Text.splitLine input).2, none⟩
  | some turn =>
    match turn.stuck? with
    | some operator =>
      ⟨turn.session, invitation :: turn.events, (Text.splitLine input).2, some operator⟩
    | none =>
      let later := converse settings (Text.splitLine input).2 turn.session
      { later with events := invitation :: turn.events ++ later.events }
termination_by input.length
decreasing_by exact answered_shorter _answered

end Session

end Scriptlet

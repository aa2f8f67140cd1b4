import HoverServer.CommandLine.Arguments
import HoverServer.Connection.Serve
import HoverServer.Files
import HoverServer.Log.Line

/-! The whole program as a function from what it is started with to what it leaves behind. -/
namespace HoverServer

/-- What the program is started with. The system says by which name it knows the file that is made
at a path, or why none can be made there. -/
structure Launch where
  arguments : List Bytes
  environment : Environment
  input : List Read
  files : Files
  locate : String → Except CreateFault String

inductive LogFault where
  | filter (fault : Log.FilterFault)
  | file (path : String) (fault : CreateFault)
  deriving DecidableEq

def LogFault.message : LogFault → String
  | .filter fault => "invalid log filter: " ++ fault.message
  | .file path fault => "failed to create log file '" ++ path ++ "': " ++ fault.message

/-- Why nothing is served. -/
inductive StartFault where
  | settings (h : CommandLine.Halt)
  | log (fault : LogFault)
  deriving DecidableEq

def StartFault.message (name : String) (env : Environment) : StartFault → String
  | .settings h => "failed to load configuration: " ++ h.message name env
  | .log fault => "failed to initialise telemetry: " ++ fault.message

/-- Where log lines go: a file, or the error output. -/
structure Logger where
  format : Log.Format
  filter : Log.Filter
  file : Option String
  deriving DecidableEq

/-- The filter is read before any file is touched. -/
def Logger.ofSettings (locate : String → Except CreateFault String) (s : Settings) :
    Except LogFault Logger :=
  match Log.Filter.read s.logFilter with
  | .error fault => .error (.filter fault)
  | .ok filter =>
    match s.logFile with
    | none => .ok ⟨s.logFormat, filter, none⟩
    | some path =>
      match locate path with
      | .error fault => .error (.file path fault)
      | .ok name => .ok ⟨s.logFormat, filter, some name⟩

open Log in
def configuredEvent (s : Settings) : Event :=
  ⟨.info, .startup, "configuration loaded",
    [("log_format", .shown s.logFormat.name),
      ("malformed_messages", .shown s.policies.malformed.name),
      ("unknown_methods", .shown s.policies.unknown.name)]⟩

open Log in
def startedEvent : Event := ⟨.info, .startup, "started", []⟩

open Log in
def finishedEvent : Except ServeError Termination → Event
  | .ok t =>
    ⟨.info, .startup, "connection finished",
      [("termination", .shown t.text), ("exit_code", .count t.exitCode.toNat)]⟩
  | .error e => ⟨.error, .startup, "connection failed", [("error", .shown e.message)]⟩

/-- One connection served under given settings. -/
def Settings.run (s : Settings) (input : List Read) (sink : Sink) : Served :=
  let served := serve s.policies input sink
  { served with
    events := configuredEvent s :: startedEvent :: served.events ++ [finishedEvent served.outcome] }

def Served.exitCode (s : Served) : UInt8 :=
  match s.outcome with
  | .ok t => t.exitCode
  | .error _ => 1

structure Finish where
  exitCode : UInt8
  output : Bytes
  errors : Bytes
  files : Files
  deriving DecidableEq

namespace Launch

def name (l : Launch) : String :=
  match l.arguments with
  | [] => CommandLine.programName
  | path :: _ => CommandLine.calledName path

def start (l : Launch) : Except StartFault (Settings × Logger) :=
  match CommandLine.readSettings l.arguments l.environment with
  | .error h => .error (.settings h)
  | .ok s =>
    match Logger.ofSettings l.locate s with
    | .error fault => .error (.log fault)
    | .ok log => .ok (s, log)

def haltFinish (l : Launch) (h : CommandLine.Halt) : Finish :=
  let text := Bytes.ofString (h.text .stream l.name l.environment)
  if h.isInformational then ⟨h.exitCode, text, [], l.files⟩ else ⟨h.exitCode, [], text, l.files⟩

def faultFinish (l : Launch) : StartFault → Finish
  | .settings h => l.haltFinish h
  | .log fault =>
    let message := (StartFault.log fault).message l.name l.environment
    ⟨1, [], Bytes.ofString (CommandLine.programName ++ ": " ++ message ++ "\n"), l.files⟩

/-- A log file holds the log of the last run and nothing else. -/
def servedFinish (l : Launch) (log : Logger) (stamps : Nat → String) (served : Served) : Finish :=
  let text := Bytes.ofString (Log.text (Log.lines log.format log.filter stamps served.events))
  match log.file with
  | none => ⟨served.exitCode, served.connection.sink.accepted, text, l.files⟩
  | some name => ⟨served.exitCode, served.connection.sink.accepted, [], l.files.put name text⟩

/-- The whole run, where `stamps` gives the time of each log line. -/
def run (l : Launch) (stamps : Nat → String) : Finish :=
  match l.start with
  | .error fault => l.faultFinish fault
  | .ok (s, log) => l.servedFinish log stamps (s.run l.input .perfect)

end Launch
end HoverServer

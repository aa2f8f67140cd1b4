import HoverServer.Log.Stamp
import HoverServer.Program
import Std.Time.DateTime.Timestamp

/-! The program at work: the standard streams, the environment and the clock around the pure
definitions. -/
namespace HoverServer.Main

def now : IO String := do
  let time ← Std.Time.Timestamp.now
  return Log.Stamp.text time.toNanosecondsSinceUnixEpoch.val.toNat

def writeBytes (stream : IO.FS.Stream) (bs : Bytes) : IO Unit := do
  stream.write ⟨bs.toArray⟩
  stream.flush

/-- A log that cannot be written does not stop the program. -/
def log (stream : IO.FS.Stream) (format : Log.Format) (filter : Log.Filter)
    (events : List Log.Event) : IO Unit := do
  for e in events do
    if filter.admits e then
      let line := Bytes.ofString (e.line format (← now) ++ "\n")
      let _ ← EIO.toBaseIO (writeBytes stream line)

def ioError (e : IO.Error) : IoError := ⟨.other, toString e⟩

def createFault (e : IO.Error) : CreateFault :=
  match e with
  | .noFileOrDirectory .. => .notFound
  | .inappropriateType _ code _ => if code = 20 then .notADirectory else .isDirectory
  | e => .other (toString e)

def environment : IO Environment := do
  let values ← Setting.all.mapM fun s => do
    return (s, (← IO.getEnv s.environmentName).map Bytes.ofString)
  return fun s => (values.lookup s).join

/-- Reads no more than is needed for the next frame, so that no answer waits for later input. -/
partial def serveLoop (c : Connection) (input output : IO.FS.Stream)
    (say : List Log.Event → IO Unit) : IO (Except ServeError Termination) := do
  let size := min Read.chunkSize c.decoder.needed
  match ← EIO.toBaseIO (input.read (USize.ofNat size)) with
  | .error e => return .error (.io (ioError e))
  | .ok chunk =>
    if chunk.isEmpty then
      say c.endEvents
      return .ok .endOfInput
    let got := c.receive chunk.toList
    say got.events
    match ← EIO.toBaseIO (writeBytes output got.connection.sink.accepted), got.outcome with
    | .error e, _ => return .error (.io (ioError e))
    | .ok _, .error e => return .error e
    | .ok _, .ok (some t) => return .ok t
    | .ok _, .ok none => serveLoop { got.connection with sink := .perfect } input output say

def serveSettings (s : Settings) (say : List Log.Event → IO Unit) : IO UInt32 := do
  say [configuredEvent s, startedEvent, servingEvent s.policies]
  let outcome ←
    serveLoop (.start s.policies .perfect) (← IO.getStdin) (← IO.getStdout) say
  say [finishedEvent outcome]
  match outcome with
  | .ok t => return t.exitCode.toUInt32
  | .error _ => return 1

def openLog (s : Settings) : IO (Except LogFault IO.FS.Stream) := do
  match s.logFile with
  | none => return .ok (← IO.getStderr)
  | some path =>
    match ← EIO.toBaseIO (IO.FS.Handle.mk path .write) with
    | .ok handle => return .ok (.ofHandle handle)
    | .error e => return .error (.file path (createFault e))

/-- Uses the finish of a run that serves nothing, which leaves all files alone. -/
def finishWith (finish : Finish) : IO UInt32 := do
  writeBytes (← IO.getStdout) finish.output
  writeBytes (← IO.getStderr) finish.errors
  return finish.exitCode.toUInt32

def run (l : Launch) : IO UInt32 := do
  match CommandLine.readSettings l.arguments l.environment with
  | .error h => finishWith (l.faultFinish (.settings h))
  | .ok s =>
    match Log.Filter.read s.logFilter with
    | .error fault => finishWith (l.faultFinish (.log (.filter fault)))
    | .ok filter =>
      match ← openLog s with
      | .error fault => finishWith (l.faultFinish (.log fault))
      | .ok stream => serveSettings s (log stream s.logFormat filter)

end HoverServer.Main

open HoverServer in
def main (arguments : List String) : IO UInt32 := do
  let all := (CommandLine.programName :: arguments).map Bytes.ofString
  HoverServer.Main.run ⟨all, ← Main.environment, [], [], .ok⟩

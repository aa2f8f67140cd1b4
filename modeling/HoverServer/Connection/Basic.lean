import HoverServer.Connection.Exchange
import HoverServer.Frame.Decoder
import HoverServer.Stream.Basic

/-! One client: frames in, a session, responses out. -/
namespace HoverServer

inductive ServeError where
  | framing (fault : Frame.Fault)
  | envelope (m : Malformed)
  | io (e : IoError)
  deriving DecidableEq

def ServeError.message : ServeError → String
  | .framing fault => "framing error: " ++ fault.message
  | .envelope m => m.message
  | .io e => "I/O error: " ++ e.message

def Ending.outcome : Ending → Except ServeError (Option Termination)
  | .continues => .ok none
  | .done t => .ok (some t)
  | .failed m => .error (.envelope m)

structure Connection where
  policies : Policies
  decoder : Frame.Decoder
  session : Session
  sink : Sink

namespace Connection

def start (p : Policies) (sink : Sink) : Connection := ⟨p, .empty, .fresh, sink⟩

/-- The state of affairs after some input. Without a termination the connection stays open. -/
structure Received where
  connection : Connection
  events : List Log.Event
  outcome : Except ServeError (Option Termination)

def deliver (sink : Sink) : Option Response → Option IoError × Sink
  | none => (none, sink)
  | some r => sink.send (Frame.encode (Bytes.ofString r.encode))

def handle (c : Connection) (body : String) : Received :=
  let x := Exchange.ofBody c.policies c.session body
  match deliver c.sink x.response with
  | (some e, sink) => ⟨{ c with session := x.session, sink := sink }, x.events, .error (.io e)⟩
  | (none, sink) =>
    ⟨{ c with session := x.ending.close x.session, sink := sink }, x.events ++ x.ending.events,
      x.ending.outcome⟩

/-- Bodies are handled in order, up to the first that ends the connection. -/
def handleAll (c : Connection) : List String → Received
  | [] => ⟨c, [], .ok none⟩
  | body :: more =>
    let first := c.handle body
    match first.outcome with
    | .ok none =>
      let rest := first.connection.handleAll more
      ⟨rest.connection, first.events ++ rest.events, rest.outcome⟩
    | _ => first

/-- One line for each frame, with the bytes that are left behind it. -/
def frameEvents (left : Nat) : List Frame → List Log.Event
  | [] => []
  | f :: r =>
    ⟨.debug, .framing, "decoded frame",
      [("content_length", .count f.payload.length),
        ("buffered", .count ((r.map Frame.size).sum + left))]⟩ :: frameEvents left r

open Log in
def framingEvent (fault : Frame.Fault) : Event :=
  ⟨.error, .connection, "unrecoverable framing error", [("error", .shown fault.message)]⟩

open Log in
def discarded (chunk : Bytes) : Event :=
  ⟨.debug, .connection, "discarding input after exit", [("bytes", .count chunk.length)]⟩

def receive (c : Connection) (chunk : Bytes) : Received :=
  if c.session.phase = .exited then ⟨c, [discarded chunk], .ok none⟩
  else
    let fed := c.decoder.feed chunk
    let c := { c with decoder := fed.decoder }
    let decoded := frameEvents fed.decoder.buffer.length fed.frames
    match fed.bodies with
    | .error fault => ⟨c, decoded ++ [framingEvent fault], .error (.framing fault)⟩
    | .ok bodies =>
      let handled := c.handleAll bodies
      { handled with events := decoded ++ handled.events }

/-- The input may end inside a frame. -/
def endEvents (c : Connection) : List Log.Event :=
  (if c.decoder.buffer = [] then []
    else [⟨.warn, .connection, "input ended inside an incomplete frame",
      [("pending", .count c.decoder.buffer.length)]⟩]) ++
    [⟨.info, .connection, "input closed", [("phase", .shown c.session.phase.name)]⟩]

end Connection
end HoverServer

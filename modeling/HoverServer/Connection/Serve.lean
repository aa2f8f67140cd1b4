import HoverServer.Connection.Basic

/-! A connection driven by its input until one of the two ends. -/
namespace HoverServer

structure Served where
  connection : Connection
  events : List Log.Event
  outcome : Except ServeError Termination
  unread : List Read

namespace Connection

/-- An interrupted read is tried again; any other failure is final. -/
def run (c : Connection) : List Read → Served
  | [] => ⟨c, c.endEvents, .ok .endOfInput, []⟩
  | .bytes [] :: r => ⟨c, c.endEvents, .ok .endOfInput, r⟩
  | .bytes (b :: bs) :: r =>
    let got := c.receive (b :: bs)
    match got.outcome with
    | .error e => ⟨got.connection, got.events, .error e, r⟩
    | .ok (some t) => ⟨got.connection, got.events, .ok t, r⟩
    | .ok none =>
      let rest := got.connection.run r
      { rest with events := got.events ++ rest.events }
  | .failure e :: r => if e.kind = .interrupted then c.run r else ⟨c, [], .error (.io e), r⟩

end Connection

open Log in
def servingEvent (p : Policies) : Event :=
  ⟨.info, .connection, "serving connection", [("options", .shown p.text)]⟩

def serve (p : Policies) (input : List Read) (sink : Sink) : Served :=
  let run := (Connection.start p sink).run (input.flatMap Read.chunks)
  { run with events := servingEvent p :: run.events }

end HoverServer

import HoverServer.Session.Reaction

/-! What one body leads to, before anything is sent. -/
namespace HoverServer

inductive Termination where
  | shutdown
  | exit (graceful : Bool)
  | endOfInput
  deriving DecidableEq

def Termination.exitCode : Termination → UInt8
  | .shutdown => 0
  | .exit true => 0
  | .exit false => 1
  | .endOfInput => 0

def Termination.text : Termination → String
  | .shutdown => "Shutdown"
  | .exit true => "Exit \x7b graceful: true \x7d"
  | .exit false => "Exit \x7b graceful: false \x7d"
  | .endOfInput => "EndOfInput"

/-- How it goes on once the response is out. -/
inductive Ending where
  | continues
  | done (t : Termination)
  | failed (m : Malformed)
  deriving DecidableEq

structure Exchange where
  session : Session
  response : Option Response
  ending : Ending
  events : List Log.Event

namespace Exchange

def ofReaction (s : Session) (events : List Log.Event) : Reaction → Exchange
  | .respond r => ⟨s, some r, .continues, events⟩
  | .silent => ⟨s, none, .continues, events⟩
  | .shutdown r => ⟨s, r, .done .shutdown, events⟩
  | .exit graceful => ⟨s, none, .done (.exit graceful), events⟩

open Log in
def malformedEvents (m : Malformed) : List Event :=
  [⟨.error, .connection, "malformed message", [("body", .text m.text)]⟩,
    ⟨.error, .connection, m.message, [("fault", .shown m.fault.message)]⟩]

/-- A malformed body is answered only by an id that could still be read from it. -/
def ofMalformed (policy : MalformedPolicy) (s : Session) (m : Malformed) : Exchange :=
  match policy, m.id with
  | .reject, some id =>
    ⟨s, some (.failure (some id) .invalidRequest m.fault.message), .continues, malformedEvents m⟩
  | _, _ => ⟨s, none, .failed m, malformedEvents m⟩

def inbound (body : String) : Log.Event :=
  ⟨.debug, .connection, "inbound message", [("body", .text body)]⟩

def after (event : Log.Event) (x : Exchange) : Exchange := { x with events := event :: x.events }

def ofBody (p : Policies) (s : Session) (body : String) : Exchange :=
  after (inbound body) <|
    match Request.decode body with
    | .error m => ofMalformed p.malformed s m
    | .ok r =>
      let h := s.handle p.unknown r
      ofReaction h.session h.events h.reaction

end Exchange

namespace Ending

/-- A shutdown is over as soon as it has been answered. -/
def close (s : Session) : Ending → Session
  | .done .shutdown => s.exit
  | _ => s

def events : Ending → List Log.Event
  | .done .shutdown => [⟨.info, .connection, "shutdown complete", []⟩]
  | _ => []

end Ending
end HoverServer

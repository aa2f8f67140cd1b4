import HoverServer.Log.Event
import HoverServer.Session.Verdict

/-! What follows from a verdict: something to send, a session that may have moved on, and lines
for the log. -/
namespace HoverServer

inductive Reaction where
  | respond (r : Response)
  | silent
  | shutdown (r : Option Response)
  | exit (graceful : Bool)
  deriving DecidableEq

def greetingResult (client : Option ClientInfo) : Json :=
  .object ([("capabilities", .object [("hoverProvider", .bool true)])] ++
    (client.map fun c => ("clientInfo", Params.clientInfoJson c)).toList)

def hoverText (p : TextPosition) : String :=
  "`" ++ p.uri.text ++ "`\n\n**Hover** at line " ++ toString p.position.line.toNat ++
    ", character " ++ toString p.position.character.toNat

def hoverResult (p : TextPosition) : Json :=
  .object [("contents", .object [("kind", .string "markdown"), ("value", .string (hoverText p))])]

/-- Nothing answers a message without an id. -/
def Reaction.answer (id : Option Id) (response : Option Id → Response) : Reaction :=
  if id.isSome then .respond (response id) else .silent

namespace Verdict

def reaction (v : Verdict) (policy : UnknownMethodPolicy) (s : Session) (r : Request) : Reaction :=
  match v with
  | .leave => .exit (s.phase == .shuttingDown)
  | .refuse why => .answer r.id (.failure · why.code why.reason)
  | .noted => .silent
  | .saved _ => .silent
  | .drop _ => .silent
  | .unaddressed => .silent
  | .badParams e => .answer r.id (.failure · .invalidParams e.message)
  | .greet client => .answer r.id (.success · (greetingResult client))
  | .hover p => .answer r.id (.success · (hoverResult p))
  | .shutDown => .shutdown (r.id.map fun id => .success (some id) .null)
  | .unknown =>
    match policy with
    | .ignore => .silent
    | .reject => .answer r.id (.failure · .methodNotFound ("unknown method: " ++ r.method))

def session (v : Verdict) (s : Session) : Session :=
  match v with
  | .leave => s.exit
  | .greet client => s.greet client
  | .shutDown => s.beginShutdown
  | _ => s

def optionText (shown : Option String) : String :=
  match shown with
  | none => "None"
  | some s => "Some(" ++ s ++ ")"

def idText (id : Option Id) : String := optionText (id.map Id.taggedText)

open Log in
def events (v : Verdict) (s : Session) (r : Request) : List Event :=
  match v with
  | .leave =>
    if s.phase = .shuttingDown then []
    else [⟨.warn, .session, "exit received before shutdown", [("phase", .shown s.phase.name)]⟩]
  | .refuse why =>
    [⟨.warn, .session, "rejecting message",
      [("method", .text r.method), ("reason", .text why.reason)]⟩]
  | .noted => []
  | .saved d => [⟨.debug, .session, "document saved", [("uri", .text d.uri.text)]⟩]
  | .drop e => [⟨.warn, .session, "dropping notification", [("error", .shown e.message)]⟩]
  | .unaddressed =>
    [⟨.warn, .session, "request method sent as a notification; ignoring",
      [("method", .shown r.method)]⟩]
  | .badParams e => [⟨.warn, .session, "rejecting request", [("error", .shown e.message)]⟩]
  | .greet client =>
    [⟨.info, .session, "session initialized",
      [("client", .shown (optionText (client.map fun c => Text.quoted c.name)))]⟩]
  | .hover _ => []
  | .shutDown => []
  | .unknown =>
    [⟨.error, .session, "Unknown method",
      [("method", .text r.method), ("id", .shown (idText r.id))]⟩]

end Verdict

structure Handled where
  reaction : Reaction
  session : Session
  events : List Log.Event

open Log in
def Session.received (s : Session) (r : Request) : Event :=
  ⟨.info, .session, "received message",
    [("method", .shown r.method), ("id", .shown (Verdict.idText r.id)),
      ("phase", .shown s.phase.name)]⟩

def Session.handle (policy : UnknownMethodPolicy) (s : Session) (r : Request) : Handled :=
  let v := s.verdict r
  ⟨v.reaction policy s r, v.session s, s.received r :: v.events s r⟩

end HoverServer

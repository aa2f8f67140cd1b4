import HoverServer.Message.Request
import HoverServer.Message.Response
import HoverServer.Policy
import HoverServer.Session.Basic
import HoverServer.Session.Method

/-! What a request means in a session, before anything is done about it. -/
namespace HoverServer

/-- Why a message is turned away. -/
inductive Refusal where
  | shuttingDown
  | notARequest
  | alreadyGreeted
  | notGreeted
  deriving DecidableEq

def Refusal.code : Refusal → ErrorCode
  | .notGreeted => .serverNotInitialized
  | _ => .invalidRequest

def Refusal.reason : Refusal → String
  | .shuttingDown => "server is shutting down"
  | .notARequest => "notification method sent as a request"
  | .alreadyGreeted => "server is already initialized"
  | .notGreeted => "server has not been initialized"

inductive Verdict where
  | leave
  | refuse (r : Refusal)
  | noted
  | saved (d : SavedDocument)
  | drop (e : ParamsError)
  | unaddressed
  | badParams (e : ParamsError)
  | greet (client : Option ClientInfo)
  | hover (p : TextPosition)
  | shutDown
  | unknown

namespace Verdict

def ofParams {α : Type} (decoded : Except ParamsError α) (good : α → Verdict)
    (bad : ParamsError → Verdict) : Verdict :=
  match decoded with
  | .ok a => good a
  | .error e => bad e

/-- The verdict of an open session, which is neither shutting down nor over. -/
def ofOpen (greeted : Bool) (r : Request) : Verdict :=
  match Method.ofName r.method, r.isNotification with
  | .exit, _ => .leave
  | .greeted, true => .noted
  | .greeted, false => .refuse .notARequest
  | .saved, true => ofParams (Params.decode Params.savedDocument r.method r.params) .saved .drop
  | .saved, false => .refuse .notARequest
  | .greeting, true => .unaddressed
  | .greeting, false =>
    if greeted then .refuse .alreadyGreeted
    else ofParams (Params.decode Params.introduction r.method r.params) .greet .badParams
  | .hover, true => .unaddressed
  | .hover, false =>
    if greeted then ofParams (Params.decode Params.textPosition r.method r.params) .hover .badParams
    else .refuse .notGreeted
  | .shutdown, _ => .shutDown
  | .other, _ => .unknown

/-- Once a session is closing it hears nothing but the call to exit. -/
def ofClosing (r : Request) : Verdict :=
  match Method.ofName r.method with
  | .exit => .leave
  | _ => .refuse .shuttingDown

end Verdict

def Session.verdict (s : Session) (r : Request) : Verdict :=
  match s.phase with
  | .uninitialized => .ofOpen false r
  | .initialized => .ofOpen true r
  | .shuttingDown => .ofClosing r
  | .exited => .ofClosing r

end HoverServer

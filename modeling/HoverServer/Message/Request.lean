import HoverServer.Message.Fault

/-! Requests and notifications, written and read. -/
namespace HoverServer

/-- A message from the client. Without an id it is a notification and gets no answer. -/
structure Request where
  id : Option Id
  method : String
  params : Option Json
  deriving DecidableEq

namespace Request

def isNotification (r : Request) : Bool := r.id.isNone

def members (r : Request) : Members :=
  [("jsonrpc", .string Message.version)] ++
    (r.id.map fun id => ("id", id.toJson)).toList ++
    [("method", .string r.method)] ++
    (r.params.map fun params => ("params", params)).toList

def encode (r : Request) : String := Json.objectText r.members

/-- The version is looked at first, then the method, then the id. -/
def decode (text : String) : Except Malformed Request := do
  let members ← Message.open? text
  let fail (fault : Fault) : Except Malformed Request :=
    .error ⟨text, fault, Message.usableId members⟩
  match members.get? "method" with
  | some (.string method) =>
    match members.get? "id" with
    | none => return ⟨none, method, members.get? "params"⟩
    | some v =>
      match Id.ofJson? v with
      | some id => return ⟨some id, method, members.get? "params"⟩
      | none => fail .invalidId
  | _ => fail .missingMethod

end Request
end HoverServer

import HoverServer.Json.Reader
import HoverServer.Message.Id

/-! What both kinds of message have in common, and what can be wrong with one. -/
namespace HoverServer

/-- Why a body is no message. -/
inductive Fault where
  | json (e : Json.ReadError)
  | notAnObject
  | unsupportedVersion
  | missingMethod
  | invalidId
  | missingOutcome
  | conflictingOutcome
  | invalidError (e : Json.Mismatch)
  deriving DecidableEq

def Fault.message : Fault → String
  | .json e => "body is not valid JSON: " ++ e.message
  | .notAnObject => "body is not a JSON object"
  | .unsupportedVersion => "`jsonrpc` must be \"2.0\""
  | .missingMethod => "`method` must be a string"
  | .invalidId => "`id` must be a number or a string"
  | .missingOutcome => "response carries neither `result` nor `error`"
  | .conflictingOutcome => "response carries both `result` and `error`"
  | .invalidError e => "malformed `error` member: " ++ e.message

/-- A body that is no message, with the id to answer it by if it has one. -/
structure Malformed where
  text : String
  fault : Fault
  id : Option Id
  deriving DecidableEq

def Malformed.message (m : Malformed) : String :=
  "malformed JSON-RPC message: " ++ m.fault.message

namespace Message

def version : String := "2.0"

def usableId (members : Members) : Option Id := (members.get? "id").bind Id.ofJson?

/-- The members of a body that is an object of the right version. -/
def open? (text : String) : Except Malformed Members :=
  match Json.parse text with
  | .error e => .error ⟨text, .json e, none⟩
  | .ok (.object members) =>
    if Members.get? members "jsonrpc" = some (.string version) then .ok members
    else .error ⟨text, .unsupportedVersion, usableId members⟩
  | .ok _ => .error ⟨text, .notAnObject, none⟩

end Message
end HoverServer

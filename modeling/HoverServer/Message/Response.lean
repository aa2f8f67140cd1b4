import HoverServer.Message.Fault

/-! Responses, written and read. -/
namespace HoverServer

inductive ErrorCode where
  | parseError
  | invalidRequest
  | methodNotFound
  | invalidParams
  | internalError
  | serverNotInitialized
  deriving DecidableEq

namespace ErrorCode

def value : ErrorCode → Int64
  | .parseError => -32700
  | .invalidRequest => -32600
  | .methodNotFound => -32601
  | .invalidParams => -32602
  | .internalError => -32603
  | .serverNotInitialized => -32002

def all : List ErrorCode :=
  [.parseError, .invalidRequest, .methodNotFound, .invalidParams, .internalError,
    .serverNotInitialized]

end ErrorCode

structure ResponseError where
  code : Int64
  message : String
  data : Option Json
  deriving DecidableEq

namespace ResponseError

def ofCode (code : ErrorCode) (message : String) : ResponseError := ⟨code.value, message, none⟩

def toJson (e : ResponseError) : Json :=
  .object ([("code", .ofInt64 e.code), ("message", .string e.message)] ++
    (e.data.map fun data => ("data", data)).toList)

def decode : Json.Decoder ResponseError := fun v => do
  let (code, message, data) ← Json.decodeThree "ResponseError"
    (.required "code" .signed) (.required "message" .text) (.trailing "data" .any) v
  return ⟨code, message, data⟩

end ResponseError

inductive Outcome where
  | result (v : Json)
  | error (e : ResponseError)
  deriving DecidableEq

/-- A message to the client. The id is missing only if the request's own could not be read. -/
structure Response where
  id : Option Id
  outcome : Outcome
  deriving DecidableEq

namespace Response

def success (id : Option Id) (v : Json) : Response := ⟨id, .result v⟩

def failure (id : Option Id) (code : ErrorCode) (message : String) : Response :=
  ⟨id, .error (.ofCode code message)⟩

def idJson : Option Id → Json
  | none => .null
  | some id => id.toJson

def outcomeMember : Outcome → String × Json
  | .result v => ("result", v)
  | .error e => ("error", e.toJson)

def members (r : Response) : Members :=
  [("jsonrpc", .string Message.version), ("id", idJson r.id), outcomeMember r.outcome]

def encode (r : Response) : String := Json.objectText r.members

/-- The id has to be there even where it is null. -/
def decodeId (members : Members) : Option (Option Id) :=
  match members.get? "id" with
  | none => none
  | some .null => some none
  | some v => (Id.ofJson? v).map some

def decode (text : String) : Except Malformed Response := do
  let members ← Message.open? text
  match decodeId members with
  | none => .error ⟨text, .invalidId, none⟩
  | some id =>
    match members.get? "result", members.get? "error" with
    | some v, none => return ⟨id, .result v⟩
    | none, some v =>
      match ResponseError.decode v with
      | .ok e => return ⟨id, .error e⟩
      | .error e => .error ⟨text, .invalidError e, id⟩
    | some _, some _ => .error ⟨text, .conflictingOutcome, id⟩
    | none, none => .error ⟨text, .missingOutcome, id⟩

end Response
end HoverServer

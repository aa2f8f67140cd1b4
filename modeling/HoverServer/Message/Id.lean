import HoverServer.Json.Record

/-! The ids of requests. -/
namespace HoverServer

/-- What ties a response to its request. -/
inductive Id where
  | number (n : Number)
  | string (s : String)
  deriving DecidableEq

namespace Id

def toJson : Id → Json
  | .number n => .number n
  | .string s => .string s

def ofJson? : Json → Option Id
  | .number n => some (.number n)
  | .string s => some (.string s)
  | _ => none

def decode : Json.Decoder Id := fun v =>
  match ofJson? v with
  | some id => .ok id
  | none => .error (.noVariant "RequestId")

def text : Id → String
  | .number n => n.text
  | .string s => Text.quoted s

/-- The text together with the kind of the id. -/
def taggedText : Id → String
  | .number n => "Number(Number(" ++ n.text ++ "))"
  | .string s => "String(" ++ Text.quoted s ++ ")"

end Id

theorem Id.ofJson?_toJson (id : Id) : Id.ofJson? id.toJson = some id := by
  cases id <;> rfl

end HoverServer

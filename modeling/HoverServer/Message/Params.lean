import HoverServer.Json.Record

/-! The params of the methods that have any. -/
namespace HoverServer

structure ClientInfo where
  name : String
  version : Option String
  deriving DecidableEq

structure Position where
  line : UInt32
  character : UInt32
  deriving DecidableEq

structure TextPosition where
  uri : Uri
  position : Position

structure SavedDocument where
  uri : Uri
  text : Option String

structure ParamsError where
  method : String
  mismatch : Json.Mismatch
  deriving DecidableEq

def ParamsError.message (e : ParamsError) : String :=
  "invalid params for '" ++ e.method ++ "': " ++ e.mismatch.message

namespace Params

def clientInfo : Json.Decoder ClientInfo := fun v => do
  let (name, version) ← Json.decodeTwo "ClientInfo"
    (.required "name" .text) (.optional "version" .text) v
  return ⟨name, version⟩

def clientInfoJson (c : ClientInfo) : Json :=
  .object ([("name", .string c.name)] ++
    (c.version.map fun version => ("version", .string version)).toList)

/-- What a client says of itself when it opens the session. -/
def introduction : Json.Decoder (Option ClientInfo) :=
  Json.decodeOne "InitializeParams" (.trailing "clientInfo" clientInfo)

def document : Json.Decoder Uri :=
  Json.decodeOne "TextDocumentIdentifier" (.required "uri" .uri)

def position : Json.Decoder Position := fun v => do
  let (line, character) ← Json.decodeTwo "Position"
    (.required "line" .unsigned) (.required "character" .unsigned) v
  return ⟨line, character⟩

def textPosition : Json.Decoder TextPosition := fun v => do
  let (uri, position) ← Json.decodeTwo "TextDocumentPositionParams"
    (.required "textDocument" document) (.required "position" position) v
  return ⟨uri, position⟩

def savedDocument : Json.Decoder SavedDocument := fun v => do
  let (uri, text) ← Json.decodeTwo "DidSaveTextDocumentParams"
    (.required "textDocument" document) (.optional "text" .text) v
  return ⟨uri, text⟩

/-- Params that are absent or null are read as an object without members. -/
def given : Option Json → Json
  | none => .object []
  | some .null => .object []
  | some v => v

def decode {α : Type} (d : Json.Decoder α) (method : String) (params : Option Json) :
    Except ParamsError α :=
  match d (given params) with
  | .ok a => .ok a
  | .error e => .error ⟨method, e⟩

end Params
end HoverServer

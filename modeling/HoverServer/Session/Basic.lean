import HoverServer.Message.Params

/-! How far a client has come. -/
namespace HoverServer

inductive Phase where
  | uninitialized
  | initialized
  | shuttingDown
  | exited
  deriving DecidableEq

def Phase.name : Phase → String
  | .uninitialized => "uninitialized"
  | .initialized => "initialized"
  | .shuttingDown => "shutting down"
  | .exited => "exited"

/-- The client is known once it has introduced itself. -/
structure Session where
  phase : Phase
  client : Option ClientInfo
  deriving DecidableEq

namespace Session

def fresh : Session := ⟨.uninitialized, none⟩

def greet (s : Session) (client : Option ClientInfo) : Session :=
  { s with phase := .initialized, client := client }

def beginShutdown (s : Session) : Session := { s with phase := .shuttingDown }

def exit (s : Session) : Session := { s with phase := .exited }

end Session
end HoverServer

/-! What can be logged. -/
namespace HoverServer.Log

inductive Level where
  | error
  | warn
  | info
  | debug
  | trace
  deriving DecidableEq

/-- The part of the server that an event comes from. -/
inductive Target where
  | framing
  | session
  | connection
  | startup
  deriving DecidableEq

def Target.path : Target → String
  | .framing => "lumen_lsp::framing"
  | .session => "lumen_lsp::dispatch"
  | .connection => "lumen_lsp::server"
  | .startup => "lumend::bootstrap"

/-- What a field holds. A `text` is quoted where a line has no quotes of its own, a `shown` one
never is. -/
inductive Value where
  | text (s : String)
  | shown (s : String)
  | count (n : Nat)
  deriving DecidableEq

structure Event where
  level : Level
  target : Target
  message : String
  fields : List (String × Value)
  deriving DecidableEq

end HoverServer.Log

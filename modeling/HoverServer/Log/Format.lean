/-! The formats of log lines. -/
namespace HoverServer.Log

inductive Format where
  | plain
  | json
  | compact
  deriving DecidableEq

def Format.name : Format → String
  | .plain => "plain"
  | .json => "json"
  | .compact => "compact"

end HoverServer.Log

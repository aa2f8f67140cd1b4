/-! How the server takes messages that it cannot use. -/
namespace HoverServer

/-- What becomes of a body that is no request. -/
inductive MalformedPolicy where
  | terminate
  | reject
  deriving DecidableEq

/-- What becomes of a method that nobody knows. -/
inductive UnknownMethodPolicy where
  | ignore
  | reject
  deriving DecidableEq

structure Policies where
  malformed : MalformedPolicy
  unknown : UnknownMethodPolicy
  deriving DecidableEq

def MalformedPolicy.name : MalformedPolicy → String
  | .terminate => "terminate"
  | .reject => "reject"

def MalformedPolicy.label : MalformedPolicy → String
  | .terminate => "Terminate"
  | .reject => "Reject"

def UnknownMethodPolicy.name : UnknownMethodPolicy → String
  | .ignore => "ignore"
  | .reject => "reject"

def UnknownMethodPolicy.label : UnknownMethodPolicy → String
  | .ignore => "Ignore"
  | .reject => "Reject"

def Policies.standard : Policies := ⟨.terminate, .ignore⟩

def Policies.text (p : Policies) : String :=
  "ServeOptions \x7b malformed_messages: " ++ p.malformed.label ++ ", unknown_methods: " ++
    p.unknown.label ++ " \x7d"

end HoverServer

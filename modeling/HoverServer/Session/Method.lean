/-! The methods that mean something, by name. -/
namespace HoverServer

inductive Method where
  | greeting
  | greeted
  | hover
  | saved
  | shutdown
  | exit
  | other
  deriving DecidableEq

namespace Method

def table : List (String × Method) :=
  [("initialize", .greeting), ("initialized", .greeted), ("textDocument/hover", .hover),
    ("textDocument/didSave", .saved), ("shutdown", .shutdown), ("exit", .exit)]

def ofName (name : String) : Method := (table.lookup name).getD .other

end Method
end HoverServer

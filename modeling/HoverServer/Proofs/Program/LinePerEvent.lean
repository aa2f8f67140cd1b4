import HoverServer.Proofs.Connection.Logged
import HoverServer.Proofs.Program.Deeds
import HoverServer.Proofs.Program.Unlogged

/-! The plain log of a whole program. It has one line for each event, with the time and the level
of that event in front, whatever a client sends, but for one thing: a request is logged with its
method as it is, and a method with a line break in it makes two lines of one. -/
namespace HoverServer
open Text (OneLine)

/-- The log that a program leaves behind. -/
def Finish.log (f : Finish) (file : Option String) : Bytes :=
  match file with
  | none => f.errors
  | some name => (f.files.contents? name).getD []

namespace Settings

end Settings

namespace Launch

variable {l : Launch} {s : Settings} {log : Logger}

end Launch

/-! ### A method with a line break -/

namespace Launch

end Launch
end HoverServer

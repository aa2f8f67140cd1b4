import HoverServer.Proofs.Json.Record
import HoverServer.Proofs.Program.Deeds
import HoverServer.Proofs.Program.Unlogged

/-! Programs that do not get to serving. The settings, the filter and the place of the log file are
looked at before anything is done, so the only deed of such a program is to say what is wrong, or
what it was asked for. Its files are as they were all along, and nobody is answered. -/
namespace HoverServer
open CommandLine (readSettings)

/-- The exit code of a program that does not get to serving. -/
def StartFault.code : StartFault → UInt8
  | .settings .help => 0
  | .settings .version => 0
  | .settings _ => 2
  | .log _ => 1

namespace CommandLine

end CommandLine

namespace Launch

variable {l : Launch} {fault : StartFault}

end Launch
end HoverServer

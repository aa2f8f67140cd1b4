import HoverServer.Frame.Header
import HoverServer.Text.Lossy
import HoverServer.Text.Quoted

/-! A frame is a header block, an empty line and as many bytes as the header says. -/
namespace HoverServer

structure Frame where
  header : Bytes
  payload : Bytes
  deriving DecidableEq

namespace Frame

def Fault.message : Fault → String
  | .missingLength => "missing Content-Length header"
  | .invalidLength value => "invalid Content-Length header: " ++ Text.quoted value
  | .notAscii => "invalid header format"

def terminator : Bytes := [13, 10, 13, 10]

def bytes (f : Frame) : Bytes := f.header ++ terminator ++ f.payload

def size (f : Frame) : Nat := f.header.length + 4 + f.payload.length

def ofPayload (payload : Bytes) : Frame :=
  ⟨lengthName ++ Bytes.ofString ": " ++ Bytes.decimal payload.length, payload⟩

/-- What is sent for a body. -/
def encode (payload : Bytes) : Bytes := (ofPayload payload).bytes

def text (f : Frame) : String := Text.Lossy.decode f.payload

end Frame
end HoverServer

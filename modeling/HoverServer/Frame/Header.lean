import HoverServer.Bytes

/-! The header block of a frame: lines of names and values, of which only the first
Content-Length counts. -/
namespace HoverServer.Frame

inductive Fault where
  | missingLength
  | invalidLength (value : String)
  | notAscii
  deriving DecidableEq

def lengthName : Bytes := Bytes.ofString "Content-Length"

/-- Splits at every carriage return that a line feed follows. -/
def lines : Bytes → List Bytes
  | [] => [[]]
  | 13 :: 10 :: r => [] :: lines r
  | b :: r =>
    match lines r with
    | [] => [[b]]
    | line :: more => (b :: line) :: more

/-- The parts before and after the first colon. -/
def splitColon : Bytes → Option (Bytes × Bytes)
  | [] => none
  | b :: r =>
    if b = 58 then some ([], r)
    else (splitColon r).map fun (name, value) => (b :: name, value)

/-- The value of a line, if it is the one that gives the length. -/
def lengthValue? (line : Bytes) : Option Bytes :=
  (splitColon line).bind fun (name, value) =>
    if Bytes.sameLetters (Bytes.trim name) lengthName then some (Bytes.trim value) else none

def wordLimit : Nat := 0x10000000000000000

def parseLength (value : Bytes) : Except Fault Nat :=
  if value ≠ [] && value.all Bytes.isDigit && Bytes.decimalValue value < wordLimit then
    .ok (Bytes.decimalValue value)
  else .error (.invalidLength (Bytes.asciiText value))

def contentLength (header : Bytes) : Except Fault Nat :=
  if header.any (128 ≤ ·) then .error .notAscii
  else
    match (lines header).findSome? lengthValue? with
    | none => .error .missingLength
    | some value => parseLength value

end HoverServer.Frame

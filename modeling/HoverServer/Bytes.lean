/-! Bytes, and the ASCII text that may stand in them. -/
namespace HoverServer

/-- Everything that crosses the wire is a list of bytes. -/
abbrev Bytes := List UInt8

namespace Bytes

/-- The encoded form of a text. -/
def ofString (s : String) : Bytes :=
  s.toList.flatMap String.utf8EncodeChar

def isDigit (b : UInt8) : Bool := 48 ≤ b && b ≤ 57

/-- Tab, line feed, vertical tab, form feed, carriage return and space. -/
def isBlank (b : UInt8) : Bool := (9 ≤ b && b ≤ 13) || b == 32

def lower (b : UInt8) : UInt8 := if 65 ≤ b && b ≤ 90 then b + 32 else b

/-- Equal up to the case of ASCII letters. -/
def sameLetters (a b : Bytes) : Bool := a.map lower == b.map lower

def trimLeft (bs : Bytes) : Bytes := bs.dropWhile isBlank

def trimRight (bs : Bytes) : Bytes := (bs.reverse.dropWhile isBlank).reverse

def trim (bs : Bytes) : Bytes := trimRight (trimLeft bs)

/-- The value of a run of decimal digits, read from the left. -/
def decimalValue (bs : Bytes) : Nat :=
  bs.foldl (fun n b => 10 * n + (b.toNat - 48)) 0

def decimal (n : Nat) : Bytes := ofString (toString n)

/-- The text of bytes that are known to be ASCII. -/
def asciiText (bs : Bytes) : String :=
  String.ofList (bs.map fun b => Char.ofNat b.toNat)

/-- Cuts into consecutive pieces of at most `n + 1` bytes. -/
def pieces (n : Nat) (bs : Bytes) : List Bytes :=
  match bs with
  | [] => []
  | b :: r => (b :: r.take n) :: pieces n (r.drop n)
termination_by bs.length
decreasing_by rw [List.length_drop, List.length_cons]; omega

end Bytes
end HoverServer

import HoverServer.Bytes

/-! URI references in the generic syntax, with IPv6 as the only address in brackets. They are
checked byte by byte and kept as they are. -/
namespace HoverServer.Uri

inductive Cause where
  | unexpected
  | percent
  | address
  deriving DecidableEq

/-- Where checking ended: a cause and the number of bytes from there to the end. -/
structure Stop where
  cause : Cause
  left : Nat
  deriving DecidableEq

def isLetter (b : UInt8) : Bool := (65 ≤ b && b ≤ 90) || (97 ≤ b && b ≤ 122)

def isHex (b : UInt8) : Bool :=
  Bytes.isDigit b || (65 ≤ b && b ≤ 70) || (97 ≤ b && b ≤ 102)

def oneOf (s : String) (b : UInt8) : Bool := (Bytes.ofString s).contains b

def isSchemeByte (b : UInt8) : Bool := isLetter b || Bytes.isDigit b || oneOf "+-." b

/-- Unreserved bytes and sub-delimiters: what a registered name may hold. -/
def isNameByte (b : UInt8) : Bool :=
  isLetter b || Bytes.isDigit b || oneOf "-._~!$&'()*+,;=" b

def isUserByte (b : UInt8) : Bool := isNameByte b || oneOf ":" b

/-- The first segment of a path that follows no scheme has no colon. -/
def isFirstSegmentByte (b : UInt8) : Bool := isNameByte b || oneOf "@" b

def isPathByte (b : UInt8) : Bool := isNameByte b || oneOf ":@/" b

def isQueryByte (b : UInt8) : Bool := isPathByte b || oneOf "?" b

/-- Passes over allowed bytes and percent-encoded octets. -/
def scan (allowed : UInt8 → Bool) : Bytes → Except Stop Bytes
  | [] => .ok []
  | b :: r =>
    if b = 37 then
      match r with
      | h :: l :: r' =>
        if isHex h && isHex l then scan allowed r' else .error ⟨.percent, r.length + 1⟩
      | _ => .error ⟨.percent, r.length + 1⟩
    else if allowed b then scan allowed r
    else .ok (b :: r)

def isDecimalOctet (bs : Bytes) : Bool :=
  bs.all Bytes.isDigit && 1 ≤ bs.length && bs.length ≤ 3 &&
    (bs.length == 1 || bs.head? != some 48) && Bytes.decimalValue bs ≤ 255

def isIPv4 (bs : Bytes) : Bool :=
  let parts := bs.splitOn 46
  parts.length == 4 && parts.all isDecimalOctet

def isGroup (bs : Bytes) : Bool := bs.all isHex && 1 ≤ bs.length && bs.length ≤ 4

/-- The number of 16-bit groups that a run of them spells, where the last may be an IPv4
address worth two. -/
def groupCount? (bs : Bytes) : Option Nat :=
  if bs = [] then some 0
  else
    let parts := bs.splitOn 58
    if parts.all isGroup then some parts.length
    else if parts.dropLast.all isGroup && (parts.getLast?.map isIPv4).getD false then
      some (parts.length + 1)
    else none

def plainGroupCount? (bs : Bytes) : Option Nat :=
  if bs = [] then some 0
  else
    let parts := bs.splitOn 58
    if parts.all isGroup then some parts.length else none

/-- The two sides of the first double colon. -/
def splitEllipsis : Bytes → Option (Bytes × Bytes)
  | [] => none
  | b :: r =>
    match b, r with
    | 58, 58 :: r' => some ([], r')
    | _, _ => (splitEllipsis r).map fun (left, right) => (b :: left, right)

/-- Eight groups, or at most seven with a double colon for the others. -/
def isIPv6 (bs : Bytes) : Bool :=
  match splitEllipsis bs with
  | none => bs != [] && groupCount? bs == some 8
  | some (left, right) =>
    match plainGroupCount? left, groupCount? right with
    | some m, some n => m + n ≤ 7
    | _, _ => false

def ended (r : Bytes) : Except Stop Unit :=
  if r = [] then .ok () else .error ⟨.unexpected, r.length⟩

def fragment (r : Bytes) : Except Stop Unit := do
  match r with
  | 35 :: r => ended (← scan isQueryByte r)
  | r => ended r

def query (r : Bytes) : Except Stop Unit := do
  match r with
  | 63 :: r => fragment (← scan isQueryByte r)
  | r => fragment r

def path (r : Bytes) : Except Stop Unit := do
  query (← scan isPathByte r)

/-- A path after an authority is empty or starts with a slash. -/
def pathAfterAuthority (r : Bytes) : Except Stop Unit := do
  let rest ← scan isPathByte r
  if rest.length < r.length && r.head? != some 47 then .error ⟨.unexpected, r.length⟩
  else query rest

/-- A number may follow the host, behind a colon. -/
def afterHost (r : Bytes) : Except Stop Unit :=
  match r with
  | 58 :: r => pathAfterAuthority (r.dropWhile Bytes.isDigit)
  | r => pathAfterAuthority r

def host (r : Bytes) : Except Stop Unit := do
  match r with
  | 91 :: inner =>
    let address := inner.takeWhile (· != 93)
    if address.length < inner.length && isIPv6 address then
      afterHost (inner.drop (address.length + 1))
    else .error ⟨.address, r.length⟩
  | r => afterHost (← scan isNameByte r)

/-- A host without a user: the one colon in it starts a number, which is looked at from its
end. `after` is the number of bytes behind the host. -/
def checkHost (text : Bytes) (after : Nat) : Except Stop Unit :=
  match text.count 58 with
  | 0 => .ok ()
  | 1 =>
    let kept := (text.reverse.dropWhile Bytes.isDigit).reverse
    if kept.getLast? = some 58 then .ok ()
    else .error ⟨.unexpected, after + (text.length - kept.length) + 1⟩
  | _ => .error ⟨.unexpected, after + (text.length - (text.takeWhile (· != 58)).length)⟩

def authority (r : Bytes) : Except Stop Unit := do
  let rest ← scan isUserByte r
  match rest with
  | 64 :: h => host h
  | rest =>
    let text := r.take (r.length - rest.length)
    if text = [] then
      match rest with
      | 91 :: _ => host rest
      | _ => pathAfterAuthority rest
    else do
      checkHost text rest.length
      pathAfterAuthority rest

def afterScheme (r : Bytes) : Except Stop Unit :=
  match r with
  | 47 :: 47 :: r => authority r
  | r => path r

def relative (s : Bytes) : Except Stop Unit := do
  match s with
  | 47 :: 47 :: r => authority r
  | s =>
    let rest ← scan isFirstSegmentByte s
    match rest with
    | 58 :: _ => .error ⟨.unexpected, rest.length⟩
    | _ => path rest

def reference (s : Bytes) : Except Stop Unit :=
  match s.dropWhile isSchemeByte with
  | 58 :: r =>
    if (s.head?.map isLetter).getD false then afterScheme r else .error ⟨.unexpected, s.length⟩
  | _ => relative s

end HoverServer.Uri

namespace HoverServer

/-- What is wrong with a reference, and the byte where it shows. -/
structure UriFault where
  cause : Uri.Cause
  index : Nat
  deriving DecidableEq

def UriFault.message (f : UriFault) : String :=
  match f.cause with
  | .unexpected => "unexpected character at index " ++ toString f.index
  | .percent => "invalid percent-encoded octet at index " ++ toString f.index
  | .address => "invalid IP literal at index " ++ toString f.index

/-- A text known to be a URI reference. -/
structure Uri where
  text : String
  wellFormed : Uri.reference (Bytes.ofString text) = .ok ()

def Uri.ofString (s : String) : Except UriFault Uri :=
  match h : Uri.reference (Bytes.ofString s) with
  | .ok () => .ok ⟨s, h⟩
  | .error stop => .error ⟨stop.cause, (Bytes.ofString s).length - stop.left⟩

end HoverServer
